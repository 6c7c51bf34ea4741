/-!
# The default configuration

The configuration file that a new project starts with. Its text is also what counts where a project
has no configuration that can be read.
-/

set_option autoImplicit false

namespace ThemeLocales.Config

/-- The name of a project's configuration file. -/
def fileName : String := "theme_i18n.yaml"

/-- The text of the default configuration file. -/
def defaultText : String :=
  "# theme-i18n configuration\n" ++
  "#\n" ++
  "# Relative paths are resolved against the directory the command runs in.\n" ++
  "\n" ++
  "# Source-of-truth language. Its locale files receive the defaults found in templates.\n" ++
  "default_language: zh-CN\n" ++
  "\n" ++
  "# Languages to maintain besides the default one. When empty, the list is read\n" ++
  "# from the `theme_languages` entry of the settings schema below.\n" ++
  "target_languages: []\n" ++
  "\n" ++
  "paths:\n" ++
  "  source:\n" ++
  "    - layout\n" ++
  "    - templates\n" ++
  "    - sections\n" ++
  "    - snippets\n" ++
  "    - blocks\n" ++
  "    - config\n" ++
  "  locales: locales\n" ++
  "  schema: config/settings_schema.json\n" ++
  "\n" ++
  "# Translation provider: a built-in adapter name (baidu, openai_adapter) or the\n" ++
  "# path to a custom adapter module created with `theme-i18n gen-adapter`.\n" ++
  "adapter_name: baidu\n" ++
  "adapter_path: null\n" ++
  "adapter_options:\n" ++
  "  qps: 0.8\n" ++
  "\n" ++
  "# Optional mapping from theme language codes to provider language codes.\n" ++
  "lang_map: \x7b\x7d\n" ++
  "\n" ++
  "# Remove keys that are no longer referenced by any template.\n" ++
  "clean_unused: false\n" ++
  "\n" ++
  "# Log what would be written instead of writing locale files.\n" ++
  "dry_run: false\n" ++
  "\n" ++
  "logging:\n" ++
  "  log_level: INFO\n" ++
  "  log_file_path: logs/theme_i18n.log\n" ++
  "  log_to_console: true\n"

end ThemeLocales.Config

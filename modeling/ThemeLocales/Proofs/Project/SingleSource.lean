import ThemeLocales.Proofs.Json.RoundTrip
import ThemeLocales.Proofs.Project.Collection

/-!
# A file alone in the sources

The keys of a text are added to empty tables before any other text is read. That keeps their order
and their defaults, but a number counts as empty when it is zero, so a default that is zero becomes
the empty text (`add_nil`). The tables of a file that is alone in a directory are therefore those of
its text without zeros: `runIn_collectKeys_single`. With another number, or with no number at all,
nothing is lost.
-/

set_option autoImplicit false

namespace ThemeLocales

/-- A default, with the empty text in the place of zero. -/
def Document.withoutZero : Document → Document
  | .int 0 => .string ""
  | d => d

/-- A table, with the empty text in the place of each zero. -/
def KeyTable.withoutZeros (table : KeyTable) : KeyTable :=
  table.map fun e => (e.1, e.2.withoutZero)

/-- What a default comes to that is alone: zero is the only number that is no content. -/
theorem Document.IsDefault.settle_null {d : Document} (h : d.IsDefault) :
    settle .preserve d .null = d.withoutZero := by
  rw [Document.settle_null]
  cases d with
  | string s => by_cases hs : s = "" <;> simp [isContent, withoutZero, hs]
  | int n =>
    by_cases hn : n = 0
    · subst hn
      rfl
    · rw [withoutZero]
      · simp [isContent, hn]
      · exact fun heq => hn (Document.int.inj heq)
  | real x =>
    have hcontent : (Document.real x).isContent = true := h
    rw [if_pos hcontent]
    rfl
  | _ => exact h.elim

namespace KeyTable

/-- A table that is added to nothing keeps its keys in their order, and loses its zeros. -/
theorem add_nil {table : KeyTable} (h : table.Flat) : add [] table = table.withoutZeros := by
  have hnew : ∀ e ∈ table, (!Assoc.contains e.1 ([] : KeyTable)) = true := fun _ _ => rfl
  rw [add_eq_append [] h, List.map_nil, List.nil_append, List.filter_eq_self.2 hnew]
  apply List.map_congr_left
  intro e he
  rw [(h e he).settle_null]

end KeyTable

namespace Project

open Operation

/-- The first text that is added gives its tables, without zeros, and its keys that are no
strings. -/
theorem addContent_empty (content : String) : ({} : Collected).addContent content =
    { normal := (KeyTable.normalKeys (KeyTable.ofContent content)).withoutZeros
      schema := (KeyTable.schemaKeys (KeyTable.ofContent content)).withoutZeros
      unpaired := Template.unpairedKeys content } := by
  have hflat := KeyTable.flat_ofContent content
  have hnew : (Template.unpairedKeys content).filter (· ∉ ({} : Collected).unpaired) =
      Template.unpairedKeys content :=
    List.filter_eq_self.2 fun _ _ => rfl
  simp only [Collected.addContent, KeyTable.add_nil (KeyTable.flat_normalKeys hflat),
    KeyTable.add_nil (KeyTable.flat_schemaKeys hflat), hnew, List.nil_append]

/-- The bytes of a text with line feeds alone are read as that text. -/
theorem readTextLossy_toUTF8 {content : String} (h : '\r' ∉ content.toList) :
    Text.readTextLossy content.toUTF8 = content := by
  have hdecode : Text.decodeLossy content.toUTF8 = content := by
    rw [Text.decodeLossy, Json.fromUTF8?_toUTF8]
  rw [Text.readTextLossy, hdecode, Json.unifyLineEnds_of_not_mem h, String.ofList_toList]

section Single

variable {w : World} {directory path : String} {extensions : List String} {bytes : ByteArray}
  {content : String}

/-- Where a directory has a single source file, its text is the only one that is added. -/
theorem exists_runIn_collectKeys (hsources : w.disk.sources extensions directory = [path])
    (hread : w.disk.read path = .ok bytes) (hapart : w.Apart (· = w.disk.placeOf path)) :
    ∃ w₁, (collectKeys [directory] extensions).runIn w =
      (.ok (({} : Collected).addContent (Text.readTextLossy bytes)), w₁) := by
  have hdirectory : w.disk.isDirectory directory = true := by
    by_contra hnot
    rw [Disk.sources_of_not_isDirectory (by simpa using hnot)] at hsources
    cases hsources
  have hdirectories : ∀ d ∈ [directory], MissingOrDirectory w.disk d := by
    intro d hd
    exact .inr (List.mem_singleton.1 hd ▸ hdirectory)
  have hreadable : ∀ d ∈ [directory], ∀ p ∈ w.disk.sources extensions d,
      Readable w (fun _ => False) p := by
    intro d hd p hp
    rw [List.mem_singleton.1 hd, hsources, List.mem_singleton] at hp
    exact .inl ⟨bytes, hp ▸ hread⟩
  obtain ⟨⟨c, reads⟩, w₁, hrun, ⟨more, hmore, -, hc⟩, -⟩ :=
    (meets_recordedKeys hdirectories hreadable).exists_ok (.refl w)
  -- The one reading is that of the file, which is as it was at the start.
  have hpaths := hmore.paths
  rw [List.flatMap_singleton, hsources, List.map_eq_singleton_iff] at hpaths
  obtain ⟨r, rfl, rfl⟩ := hpaths
  have hbytes : r.bytes = bytes := by
    have hr := hmore.bytes r List.mem_cons_self hapart
    rw [hread] at hr
    exact (Except.ok.inj hr).symm
  obtain rfl : c = ({} : Collected).addContent r.content := hc
  rw [Reading.content, hbytes] at hrun
  exact ⟨w₁, runIn_collectKeys_iff.2 ⟨reads, hrun⟩⟩

/-- A source file that is alone in a directory, holds a text with line feeds alone and is not
written to by the journal: what is collected are exactly the two tables of its text, with their keys
in order and all their defaults, apart from those that are zero, which become the empty text, and
the keys that are no strings. -/
theorem runIn_collectKeys_single (hsources : w.disk.sources extensions directory = [path])
    (hread : w.disk.read path = .ok content.toUTF8) (hlines : '\r' ∉ content.toList)
    (hapart : w.Apart (· = w.disk.placeOf path)) :
    ∃ w₁, (collectKeys [directory] extensions).runIn w =
      (.ok { normal := (KeyTable.normalKeys (KeyTable.ofContent content)).withoutZeros
             schema := (KeyTable.schemaKeys (KeyTable.ofContent content)).withoutZeros
             unpaired := Template.unpairedKeys content }, w₁) := by
  obtain ⟨w₁, hrun⟩ := exists_runIn_collectKeys hsources hread hapart
  rw [readTextLossy_toUTF8 hlines, addContent_empty] at hrun
  exact ⟨w₁, hrun⟩

end Single

/-! ## A zero and a five -/

/-- A text with two numbers as defaults, one of them zero. -/
def numbersText : String := "\x7b\x7b'n'|t:0\x7d\x7d\x7b\x7b'm'|t:5\x7d\x7d"

/-- A disk on which a file with that text is the only source. -/
def numbersDisk : Disk where
  entries := [(["r"], .directory), (["r", "s"], .directory),
    (["r", "s", "a.liquid"], .file numbersText.toUTF8), (["r", "s", "notes.txt"], .file "".toUTF8)]
  workingDirectory := ["r"]

theorem sources_numbersDisk : numbersDisk.sources sourceExtensions "s" = ["s/a.liquid"] := by
  have hplace : numbersDisk.placeOf "s" = ["r", "s"] := by decide +kernel
  have hfiles : numbersDisk.filesBelow ["r", "s"] = [["a.liquid"], ["notes.txt"]] :=
    List.mergeSort_of_pairwise (by decide +kernel)
  rw [Disk.sources_of_isDirectory (by decide +kernel), hplace, hfiles]
  decide +kernel

theorem read_numbersDisk : numbersDisk.read "s/a.liquid" = .ok numbersText.toUTF8 := by
  rfl

theorem lines_numbersText : '\r' ∉ numbersText.toList := by
  decide +kernel

/-- Nothing is written to the file, because no journal is. -/
theorem apart_numbersDisk :
    World.Apart (· = numbersDisk.placeOf "s/a.liquid") { disk := numbersDisk } := by
  intro path hpath
  cases hpath

theorem filterDefault_zero : Template.filterDefault "t:0" = .int 0 := by
  have hdigits : Text.digitsValue ['0'] = 0 := by rfl
  change Template.numberDefault false ['0'] [] = .int 0
  simp [Template.numberDefault, Binary64.ofDecimal, Binary64.toInt?, hdigits]

theorem unpairedKeys_numbersText : Template.unpairedKeys numbersText = [] := by
  cbv

theorem ofContent_numbersText :
    KeyTable.ofContent numbersText = [("n", .int 0), ("m", .int 5)] := by
  have hregions : Template.regions numbersText = ["'n'|t:0", "'m'|t:5"] := by cbv
  have hblocks : Template.scanSchemaKeys numbersText = [] := by cbv
  have hkeys : Template.scanKeys numbersText = [("n", .int 0), ("m", .int 5)] := by
    rw [Template.scanKeys, hregions]
    change Template.scanRegion [("n", Template.filterDefault "t:0")] "'m'|t:5" = _
    rw [filterDefault_zero]
    rfl
  rw [KeyTable.ofContent, hkeys, hblocks]
  rfl

/-- The five is collected, the zero is not. -/
theorem runIn_collectKeys_single_numbers : ∃ w₁,
    (collectKeys ["s"] sourceExtensions).runIn { disk := numbersDisk } =
      (.ok { normal := [("n", .string ""), ("m", .int 5)] }, w₁) := by
  obtain ⟨w₁, hrun⟩ := runIn_collectKeys_single sources_numbersDisk read_numbersDisk
    lines_numbersText apart_numbersDisk
  rw [ofContent_numbersText, unpairedKeys_numbersText] at hrun
  exact ⟨w₁, hrun⟩

/-- So what is collected are not the tables of the text as they are. -/
theorem collectKeys_ne_numbers : ¬ ∃ w₁,
    (collectKeys ["s"] sourceExtensions).runIn { disk := numbersDisk } =
      (.ok { normal := KeyTable.normalKeys (KeyTable.ofContent numbersText)
             schema := KeyTable.schemaKeys (KeyTable.ofContent numbersText) }, w₁) := by
  rintro ⟨w₁, hrun⟩
  obtain ⟨w₂, hcollected⟩ := exists_runIn_collectKeys (w := { disk := numbersDisk })
    sources_numbersDisk read_numbersDisk apart_numbersDisk
  rw [hcollected, readTextLossy_toUTF8 lines_numbersText, addContent_empty,
    ofContent_numbersText] at hrun
  have htables := congrArg Collected.normal (Except.ok.inj (congrArg Prod.fst hrun))
  -- the first entries are an empty text and a zero
  cases htables

end Project

end ThemeLocales

import ThemeLocales.Proofs.Assoc
import ThemeLocales.Proofs.Json.Scalar
import ThemeLocales.Text.Units

/-!
# The grammar of JSON

The texts of the standard and the documents that they spell, as a relation that knows no reader. A
rule says what a text begins with, what that spells and which text is left (`Spells`). What the
standard leaves open is settled by the rules: of a repeated key, the first place and the last value
count (`Latest`), and an escaped surrogate without its counterpart is a code point of its own. So
texts and keys are code points here. Which integers there are is a parameter: a condition on the
number of their digits.
-/

set_option autoImplicit false

namespace ThemeLocales.Json

open Text

/-! ## Maps -/

section Maps

variable {κ α : Type} [DecidableEq κ] {entries table : List (κ × α)}

/-- The table that entries make: a key stands where it comes first and has the value that it comes
with last. -/
structure Latest (entries table : List (κ × α)) : Prop where
  keys : Assoc.keys table = (entries.map Prod.fst).eraseDups
  value : ∀ key, Assoc.get? key table = Assoc.get? key entries.reverse

/-- There is one such table. -/
theorem latest_iff : Latest entries table ↔ table = Assoc.ofEntries entries := by
  constructor
  · intro h
    have hkeys := h.keys.trans (Assoc.keys_ofEntries entries).symm
    refine Assoc.eq_of_keys_eq (hkeys ▸ Assoc.nodup_keys_ofEntries entries) hkeys fun key => ?_
    rw [h.value, Assoc.get?_ofEntries]
  · rintro rfl
    exact ⟨Assoc.keys_ofEntries entries, fun key => Assoc.get?_ofEntries key entries⟩

end Maps

/-! ## Strings -/

/-- The number that hexadecimal digits spell behind the digits of a number. -/
def hexValue? : ℕ → List Char → Option ℕ
  | n, [] => some n
  | n, c :: cs => (hexDigit? c).bind fun d => hexValue? (n * 16 + d) cs

/-- A text begins with the escape of a code unit. -/
def BeginsWithUnit (cs : List Char) (unit : ℕ) (rest : List Char) : Prop :=
  ∃ digits, digits.length = 4 ∧ hexValue? 0 digits = some unit ∧
    cs = '\\' :: 'u' :: (digits ++ rest)

/-- Behind an opening quote, a text has the rest of a string and the closing quote. A code unit is a
code point of its own unless it begins a pair. -/
inductive Quoted : List Char → Points → List Char → Prop
  | close (rest : List Char) : Quoted ('"' :: rest) [] rest
  | plain {c : Char} {cs rest : List Char} {body : Points} (hquote : c ≠ '"') (hescape : c ≠ '\\')
      (hcontrol : 0x20 ≤ c.toNat) (h : Quoted cs body rest) :
      Quoted (c :: cs) (c.toNat :: body) rest
  | letter {c e : Char} {cs rest : List Char} {body : Points} (hc : escapedChar? c = some e)
      (h : Quoted cs body rest) : Quoted ('\\' :: c :: cs) (e.toNat :: body) rest
  | unit {cs cs' rest : List Char} {body : Points} {u : ℕ} (hunit : BeginsWithUnit cs u cs')
      (hlone : isHighSurrogate u = true →
        ∀ v cs'', BeginsWithUnit cs' v cs'' → isLowSurrogate v = false)
      (h : Quoted cs' body rest) : Quoted cs (u :: body) rest
  | pair {cs cs' cs'' rest : List Char} {body : Points} {u v : ℕ} (hunit : BeginsWithUnit cs u cs')
      (hhigh : isHighSurrogate u = true) (hunit' : BeginsWithUnit cs' v cs'')
      (hlow : isLowSurrogate v = true) (h : Quoted cs'' body rest) :
      Quoted cs ((0x10000 + (u - 0xD800) * 0x400 + (v - 0xDC00)) :: body) rest

/-! ## Documents -/

/-- The text of a number. Without a fraction and an exponent it is an integer, with one of them a
double. -/
inductive NumberText (fits : ℕ → Prop) : List Char → Document Points → Prop
  | integer (negative : Bool) {whole : List Char} (hwhole : Numeral.IsWhole whole)
      (hfits : fits whole.length) : NumberText fits (signChars negative ++ whole)
        (.int (Number.signed negative (digitsValue whole)))
  | real (negative : Bool) {whole fraction ex : List Char} {e : ℤ}
      (hwhole : Numeral.IsWhole whole) (hfraction : ∀ d ∈ fraction, isAsciiDigit d = true)
      (hex : Exponent ex e) (hreal : fraction ≠ [] ∨ ex ≠ []) : NumberText fits
        (signChars negative ++ (whole ++ (Numeral.fractionChars fraction ++ ex)))
        (.real (.ofDecimal negative (digitsValue (whole ++ fraction)) (e - fraction.length)))

/-- What a rule of the grammar may yield: a value, an entry of a map, and what stands in a container
up to its end. -/
inductive Part
  | value (d : Document Points)
  | entry (key : Points) (d : Document Points)
  | items (ds : List (Document Points))
  | entries (es : List (Points × Document Points))

/-- A text begins with a part of a document; what follows that part is left. -/
inductive Spells (fits : ℕ → Prop) : List Char → Part → List Char → Prop
  | null (rest : List Char) : Spells fits ("null".toList ++ rest) (.value .null) rest
  | yes (rest : List Char) : Spells fits ("true".toList ++ rest) (.value (.bool true)) rest
  | no (rest : List Char) : Spells fits ("false".toList ++ rest) (.value (.bool false)) rest
  | number {cs : List Char} {d : Document Points} (h : NumberText fits cs d) (rest : List Char) :
      Spells fits (cs ++ rest) (.value d) rest
  | text {cs rest : List Char} {body : Points} (h : Quoted cs body rest) :
      Spells fits ('"' :: cs) (.value (.string body)) rest
  | emptyList {gap : List Char} (hgap : Gap gap) (rest : List Char) :
      Spells fits ('[' :: (gap ++ ']' :: rest)) (.value (.list [])) rest
  | list {cs rest : List Char} {ds : List (Document Points)} (h : Spells fits cs (.items ds) rest) :
      Spells fits ('[' :: cs) (.value (.list ds)) rest
  | emptyMap {gap : List Char} (hgap : Gap gap) (rest : List Char) :
      Spells fits ('{' :: (gap ++ '}' :: rest)) (.value (.map [])) rest
  | map {cs rest : List Char} {es table : List (Points × Document Points)}
      (h : Spells fits cs (.entries es) rest) (htable : Latest es table) :
      Spells fits ('{' :: cs) (.value (.map table)) rest
  | lastItem {gap gap' cs rest : List Char} {d : Document Points} (hgap : Gap gap)
      (hgap' : Gap gap') (h : Spells fits cs (.value d) (gap' ++ ']' :: rest)) :
      Spells fits (gap ++ cs) (.items [d]) rest
  | item {gap gap' cs tail rest : List Char} {d : Document Points} {ds : List (Document Points)}
      (hgap : Gap gap) (hgap' : Gap gap') (h : Spells fits cs (.value d) (gap' ++ ',' :: tail))
      (htail : Spells fits tail (.items ds) rest) : Spells fits (gap ++ cs) (.items (d :: ds)) rest
  | entry {gap gap' gap'' cs tail rest : List Char} {key : Points} {d : Document Points}
      (hgap : Gap gap) (hgap' : Gap gap') (hgap'' : Gap gap'')
      (hkey : Quoted cs key (gap' ++ ':' :: (gap'' ++ tail)))
      (h : Spells fits tail (.value d) rest) :
      Spells fits (gap ++ '"' :: cs) (.entry key d) rest
  | lastEntry {gap cs rest : List Char} {key : Points} {d : Document Points} (hgap : Gap gap)
      (h : Spells fits cs (.entry key d) (gap ++ '}' :: rest)) :
      Spells fits cs (.entries [(key, d)]) rest
  | moreEntries {gap cs tail rest : List Char} {key : Points} {d : Document Points}
      {es : List (Points × Document Points)} (hgap : Gap gap)
      (h : Spells fits cs (.entry key d) (gap ++ ',' :: tail))
      (htail : Spells fits tail (.entries es) rest) :
      Spells fits cs (.entries ((key, d) :: es)) rest

/-- A whole text spells a document, with gaps around it. -/
def IsText (fits : ℕ → Prop) (cs : List Char) (d : Document Points) : Prop :=
  ∃ gap cs' gap', Gap gap ∧ Gap gap' ∧ cs = gap ++ cs' ∧ Spells fits cs' (.value d) gap'

/-! ## Every part takes characters -/

theorem BeginsWithUnit.length_lt {cs rest : List Char} {u : ℕ} (h : BeginsWithUnit cs u rest) :
    rest.length < cs.length := by
  obtain ⟨digits, -, -, rfl⟩ := h
  simp only [List.length_cons, List.length_append]
  omega

theorem Quoted.length_lt {cs rest : List Char} {body : Points} (h : Quoted cs body rest) :
    rest.length < cs.length := by
  induction h with
  | close rest => exact Nat.lt_succ_self _
  | plain _ _ _ _ ih => exact Nat.lt_succ_of_lt ih
  | letter _ _ ih => exact Nat.lt_succ_of_lt (Nat.lt_succ_of_lt ih)
  | unit h _ _ ih => exact ih.trans h.length_lt
  | pair h _ h' _ _ ih => exact ih.trans (h'.length_lt.trans h.length_lt)

theorem NumberText.ne_nil {fits : ℕ → Prop} {cs : List Char} {d : Document Points}
    (h : NumberText fits cs d) : cs ≠ [] := by
  cases h with
  | integer negative h => simp [Numeral.IsWhole.ne_nil h]
  | real negative h => simp [Numeral.IsWhole.ne_nil h]

theorem Spells.length_lt {fits : ℕ → Prop} {cs rest : List Char} {part : Part}
    (h : Spells fits cs part rest) : rest.length < cs.length := by
  induction h with
  | null => simp; omega
  | yes => simp; omega
  | no => simp; omega
  -- in each rule some characters are taken before the rest
  | number h rest =>
    have := List.length_pos_iff.2 h.ne_nil
    rw [List.length_append]
    omega
  | text h => exact Nat.lt_succ_of_lt h.length_lt
  | list _ ih => exact Nat.lt_succ_of_lt ih
  | map _ _ ih => exact Nat.lt_succ_of_lt ih
  | entry _ _ _ hkey _ ih =>
    have := hkey.length_lt
    simp only [List.length_append, List.length_cons] at this ⊢
    omega
  | emptyList => simp only [List.length_append, List.length_cons]; omega
  | emptyMap => simp only [List.length_append, List.length_cons]; omega
  | lastItem _ _ _ ih => simp only [List.length_append, List.length_cons] at ih ⊢; omega
  | item _ _ _ _ ih ih' => simp only [List.length_append, List.length_cons] at ih ⊢; omega
  | lastEntry _ _ ih => simp only [List.length_append, List.length_cons] at ih; omega
  | moreEntries _ _ _ ih ih' => simp only [List.length_append, List.length_cons] at ih; omega

end ThemeLocales.Json

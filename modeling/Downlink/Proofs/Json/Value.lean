import Downlink.Proofs.Binary64.Shortest
import Downlink.Proofs.Json.Numeral
import Downlink.Proofs.Json.Text

/-!
# Values in JSON

A written document is read back as it was, if JSON has a word for each of its parts.  What is read
in turn has only numbers of the two kinds that JSON texts have here: integers of at most 64 bits and
finite reals.

## Results

* `Json.readsBack_of_isLegible` — reading a written value gives it back, and leaves what stands
  behind it.
* `Document.ofJson?_json` — reading the text of a document gives the document back.
* `Document.numbersFit_of_ofJson?` — what is read has its numbers in range.
-/

set_option autoImplicit false

namespace Downlink

section Lists

universe u v

variable {α : Type u} {β : Type v}

theorem mapM_map_eq_some {read : α → Option β} {write : β → α} {bs : List β}
    (h : ∀ b ∈ bs, read (write b) = some b) : (bs.map write).mapM read = some bs := by
  induction bs with
  | nil => rfl
  | cons b bs ih =>
    rw [List.map_cons, List.mapM_cons, h b List.mem_cons_self,
      ih fun b hb => h b (List.mem_cons_of_mem _ hb)]
    rfl

theorem exists_of_mem_mapM {read : α → Option β} {as : List α} {bs : List β}
    (h : as.mapM read = some bs) {b : β} (hb : b ∈ bs) : ∃ a ∈ as, read a = some b := by
  induction as generalizing bs with
  | nil =>
    cases h
    exact nomatch hb
  | cons a as ih =>
    rw [List.mapM_cons] at h
    obtain ⟨b', hb', h⟩ := Option.bind_eq_some_iff.mp h
    obtain ⟨bs', hbs', h⟩ := Option.bind_eq_some_iff.mp h
    cases h
    rcases List.mem_cons.mp hb with rfl | hb
    · exact ⟨a, List.mem_cons_self, hb'⟩
    · obtain ⟨a', ha', hread⟩ := ih hbs' hb
      exact ⟨a', List.mem_cons_of_mem _ ha', hread⟩

end Lists

/-- The documents of JSON texts: numbers are integers of at most 64 bits or finite reals.  With
`gaps`, parts may be without a value. -/
inductive Document.NumbersFit (gaps : Prop) : Document → Prop
  | null : NumbersFit gaps .null
  | bool (b : Bool) : NumbersFit gaps (.bool b)
  | integer {i : Int} (h : Int64.minValue.toInt ≤ i ∧ i < UInt64.size) :
      NumbersFit gaps (.integer i)
  | real {x : Binary64} (h : x.isFinite = true) : NumbersFit gaps (.real x)
  | text (s : String) : NumbersFit gaps (.text s)
  | list {items : List Document} (h : ∀ d ∈ items, NumbersFit gaps d) :
      NumbersFit gaps (.list items)
  | record {fields : List (String × Document)} (h : ∀ field ∈ fields, NumbersFit gaps field.2) :
      NumbersFit gaps (.record fields)
  | unreadable (h : gaps) : NumbersFit gaps .unreadable

/-- Documents that JSON has words for. -/
abbrev Document.IsLegible (d : Document) : Prop := d.NumbersFit False

/-! ## Numbers -/

theorem Document.ofNumeral_ofInt {i : Int} (h : Int64.minValue.toInt ≤ i ∧ i < UInt64.size) :
    ofNumeral (.ofInt i) = .integer i := by
  have hint : (Numeral.ofInt i).toInt? = some i := by
    have hdigits : (i.natAbs = 0) = (i = 0) := propext Int.natAbs_eq_zero
    by_cases hi : i < 0
    · simp [Numeral.ofInt, Numeral.toInt?, hi, hdigits, Int.ne_of_lt hi, abs_of_neg hi]
    · simp [Numeral.ofInt, Numeral.toInt?, hi, abs_of_nonneg (Int.not_lt.mp hi)]
  simp only [ofNumeral, hint, if_pos h]

theorem Document.ofNumeral_numeral {x : Binary64} (h : x.isFinite = true) :
    ofNumeral x.numeral = .real x := by
  simp only [ofNumeral, x.toInt?_numeral, Binary64.toBinary64_numeral h, ofNumeral.ofReal, if_pos h]

namespace Json

theorem skipBlanks_cons {c : Char} (h : isBlank c = false) (cs : List Char) :
    skipBlanks (c :: cs) = c :: cs := by
  simp [skipBlanks, h]

/-- A numeral starts with no other mark than a sign or a digit. -/
theorem ne_of_startsNumeral {c : Char} (h : c = '-' ∨ c.isDigit = true) {mark : Char}
    (hmark : ¬ (mark = '-' ∨ mark.isDigit = true)) : c ≠ mark :=
  fun heq => hmark (heq ▸ h)

theorem isBlank_of_startsNumeral {c : Char} (h : c = '-' ∨ c.isDigit = true) :
    isBlank c = false := by
  have hspace : c ≠ ' ' := ne_of_startsNumeral h (by decide)
  have hnewline : c ≠ '\n' := ne_of_startsNumeral h (by decide)
  have htab : c ≠ '\t' := ne_of_startsNumeral h (by decide)
  have hreturn : c ≠ '\r' := ne_of_startsNumeral h (by decide)
  simp [isBlank, hspace, hnewline, htab, hreturn]

/-- No other value starts like a numeral. -/
theorem readValue_of_startsNumeral {c : Char} (h : c = '-' ∨ c.isDigit = true) (fuel : Nat)
    (cs : List Char) : readValue (fuel + 1) (c :: cs) =
      (readNumeral (c :: cs)).map fun read => (.ofNumeral read.1, read.2) := by
  rw [readValue, skipBlanks_cons (isBlank_of_startsNumeral h)]
  split
  case h_7 => cases readNumeral (c :: cs) <;> rfl
  all_goals
    rename_i heq
    exact absurd (List.cons.inj heq).1 (ne_of_startsNumeral h (by decide))

theorem readValue_text (fuel : Nat) (n : Numeral) {rest : List Char} (hrest : AfterValue rest) :
    readValue (fuel + 1) (n.text ++ rest) = some (.ofNumeral n, rest) := by
  have hread := readNumeral_text n hrest
  obtain ⟨c, cs, heq, hc⟩ := exists_text_eq n
  rw [heq, List.cons_append] at hread ⊢
  rw [readValue_of_startsNumeral hc, hread]
  rfl

/-! ## Lists and records -/

/-- A value does not start like the end of a list. -/
theorem exists_write_eq (d : Document) :
    ∃ c cs, write d = c :: cs ∧ isBlank c = false ∧ c ≠ ']' := by
  have hnumeral (n : Numeral) : ∃ c cs, n.text = c :: cs ∧ isBlank c = false ∧ c ≠ ']' := by
    obtain ⟨c, cs, heq, hc⟩ := exists_text_eq n
    exact ⟨c, cs, heq, isBlank_of_startsNumeral hc, ne_of_startsNumeral hc (by decide)⟩
  have hnull : ∃ c cs, "null".toList = c :: cs ∧ isBlank c = false ∧ c ≠ ']' :=
    ⟨'n', _, rfl, rfl, by decide⟩
  cases d with
  | null | unreadable => simpa only [write] using hnull
  | bool b => cases b <;> exact ⟨_, _, rfl, rfl, by decide⟩
  | integer i => simpa only [write] using hnumeral _
  | real x =>
    rw [write]
    split
    · exact hnumeral _
    · exact hnull
  | text s => exact ⟨'"', _, by rw [write, writeString], rfl, by decide⟩
  | list items => exact ⟨'[', _, by rw [write], rfl, by decide⟩
  | record fields => exact ⟨'\x7b', _, by rw [write], rfl, by decide⟩

theorem length_write_pos (d : Document) : 0 < (write d).length := by
  obtain ⟨c, cs, heq, -⟩ := exists_write_eq d
  rw [heq]
  exact Nat.succ_pos _

/-- A value is read back, given fuel for all of its text: a list or record hands on two less than it
has, and its brackets are two characters of the text. -/
def ReadsBack (d : Document) : Prop := ∀ (fuel : Nat) (rest : List Char),
  2 * (write d).length ≤ fuel + 2 → AfterValue rest →
    readValue (fuel + 1) (write d ++ rest) = some (d, rest)

theorem writeItems_cons_cons (d d' : Document) (items : List Document) :
    writeItems (d :: d' :: items) = write d ++ ',' :: writeItems (d' :: items) := by
  rw [writeItems]
  exact List.cons_ne_nil _ _

theorem readItems_writeItems {items : List Document} (hne : items ≠ [])
    (h : ∀ d ∈ items, ReadsBack d) {fuel : Nat} (hfuel : 2 * (writeItems items).length ≤ fuel)
    (rest : List Char) : readItems fuel (writeItems items ++ ']' :: rest) = some (items, rest) := by
  induction items generalizing fuel with
  | nil => exact absurd rfl hne
  | cons d items ih =>
    have hpos := length_write_pos d
    cases items with
    | nil =>
      rw [writeItems] at hfuel ⊢
      obtain ⟨fuel, rfl⟩ : ∃ f, fuel = f + 2 := ⟨fuel - 2, by omega⟩
      rw [readItems, h d List.mem_cons_self fuel _ (by omega) (afterValue_cons (by decide) _)]
      rfl
    | cons d' items =>
      rw [writeItems_cons_cons] at hfuel ⊢
      rw [List.length_append, List.length_cons] at hfuel
      obtain ⟨fuel, rfl⟩ : ∃ f, fuel = f + 2 := ⟨fuel - 2, by omega⟩
      have hitem := h d List.mem_cons_self fuel (',' :: (writeItems (d' :: items) ++ ']' :: rest))
        (by omega) (afterValue_cons (by decide) _)
      have hitems := ih (List.cons_ne_nil _ _) (fun d hd => h d (List.mem_cons_of_mem _ hd))
        (show _ ≤ fuel + 1 by omega)
      rw [List.append_assoc, List.cons_append, readItems, hitem]
      show (readItems (fuel + 1) (writeItems (d' :: items) ++ ']' :: rest)).bind _ = _
      rw [hitems]
      rfl

theorem writeFields_cons_cons (name : String) (d : Document) (field : String × Document)
    (fields : List (String × Document)) : writeFields ((name, d) :: field :: fields) =
      writeString name ++ ':' :: (write d ++ ',' :: writeFields (field :: fields)) := by
  rw [writeFields]
  exact List.cons_ne_nil _ _

theorem writeString_append (s : String) (rest : List Char) :
    writeString s ++ rest = '"' :: (s.toList.flatMap escape ++ '"' :: rest) := by
  simp [writeString]

/-- The names of written records have texts. -/
theorem recordOf_named (fields : List (String × Document)) :
    recordOf (fields.map fun field => (some field.1, field.2)) = .record fields := by
  unfold recordOf
  rw [mapM_map_eq_some]
  exact fun _ _ => rfl

theorem readFields_last (name : String) {d : Document} {fuel : Nat} {cs rest : List Char}
    (h : readValue fuel cs = some (d, '\x7d' :: rest)) :
    readFields (fuel + 1) (writeString name ++ ':' :: cs) = some ([(some name, d)], rest) := by
  rw [writeString_append, readFields, skipBlanks_cons (by rfl)]
  show (readString _).bind _ = _
  rw [readString_writeString]
  show (readValue fuel cs).bind _ = _
  rw [h]
  rfl

theorem readFields_next (name : String) {d : Document} {fuel : Nat} {cs rest : List Char}
    (h : readValue fuel cs = some (d, ',' :: rest)) :
    readFields (fuel + 1) (writeString name ++ ':' :: cs) =
      (readFields fuel rest).map fun read => ((some name, d) :: read.1, read.2) := by
  rw [writeString_append, readFields, skipBlanks_cons (by rfl)]
  show (readString _).bind _ = _
  rw [readString_writeString]
  show (readValue fuel cs).bind _ = _
  rw [h]
  show (readFields fuel rest).bind _ = _
  cases readFields fuel rest <;> rfl

theorem readFields_writeFields {fields : List (String × Document)} (hne : fields ≠ [])
    (h : ∀ field ∈ fields, ReadsBack field.2) {fuel : Nat}
    (hfuel : 2 * (writeFields fields).length ≤ fuel) (rest : List Char) :
    readFields fuel (writeFields fields ++ '\x7d' :: rest) =
      some (fields.map fun field => (some field.1, field.2), rest) := by
  induction fields generalizing fuel with
  | nil => exact absurd rfl hne
  | cons field fields ih =>
    obtain ⟨name, d⟩ := field
    have hd : ReadsBack d := h (name, d) List.mem_cons_self
    cases fields with
    | nil =>
      rw [writeFields, List.length_append, List.length_cons] at hfuel
      obtain ⟨fuel, rfl⟩ : ∃ f, fuel = f + 2 := ⟨fuel - 2, by omega⟩
      have hvalue := hd fuel ('\x7d' :: rest) (by omega) (afterValue_cons (by decide) _)
      rw [writeFields, List.append_assoc, List.cons_append, readFields_last name hvalue]
      rfl
    | cons field fields =>
      rw [writeFields_cons_cons, List.length_append, List.length_cons, List.length_append,
        List.length_cons] at hfuel
      obtain ⟨fuel, rfl⟩ : ∃ f, fuel = f + 2 := ⟨fuel - 2, by omega⟩
      have hvalue := hd fuel (',' :: (writeFields (field :: fields) ++ '\x7d' :: rest)) (by omega)
        (afterValue_cons (by decide) _)
      have hfields := ih (List.cons_ne_nil _ _) (fun f hf => h f (List.mem_cons_of_mem _ hf))
        (show _ ≤ fuel + 1 by omega)
      rw [writeFields_cons_cons, List.append_assoc, List.cons_append, List.append_assoc,
        List.cons_append, readFields_next name hvalue, hfields]
      rfl

/-! ## Values -/

theorem readValue_list {c : Char} (hblank : isBlank c = false) (hne : c ≠ ']') (fuel : Nat)
    (cs : List Char) : readValue (fuel + 1) ('[' :: c :: cs) =
      (readItems fuel (c :: cs)).map fun read => (.list read.1, read.2) := by
  rw [readValue, skipBlanks_cons (by rfl)]
  simp only [skipBlanks_cons hblank]
  split
  · rename_i heq
    exact absurd (List.cons.inj heq).1 hne
  · cases readItems fuel (c :: cs) <;> rfl

theorem readsBack_list {items : List Document} (h : ∀ d ∈ items, ReadsBack d) :
    ReadsBack (.list items) := by
  intro fuel rest hfuel _
  rw [write, List.length_cons, List.length_append, List.length_singleton] at hfuel
  rw [write, List.cons_append, List.append_assoc, List.singleton_append]
  cases items with
  | nil => rfl
  | cons d items =>
    have hitems := readItems_writeItems (List.cons_ne_nil d items) h (show _ ≤ fuel by omega) rest
    obtain ⟨c, cs, heq, hblank, hne⟩ := exists_write_eq d
    have hfront : ∃ tail, writeItems (d :: items) ++ ']' :: rest = c :: tail := by
      cases items with
      | nil => exact ⟨_, by rw [writeItems, heq]; rfl⟩
      | cons => exact ⟨_, by rw [writeItems_cons_cons, heq]; rfl⟩
    obtain ⟨tail, htail⟩ := hfront
    rw [htail] at hitems ⊢
    rw [readValue_list hblank hne, hitems]
    rfl

theorem readsBack_record {fields : List (String × Document)}
    (h : ∀ field ∈ fields, ReadsBack field.2) : ReadsBack (.record fields) := by
  intro fuel rest hfuel _
  rw [write, List.length_cons, List.length_append, List.length_singleton] at hfuel
  rw [write, List.cons_append, List.append_assoc, List.singleton_append]
  cases fields with
  | nil => rfl
  | cons field fields =>
    have hfields :=
      readFields_writeFields (List.cons_ne_nil field fields) h (show _ ≤ fuel by omega) rest
    have hfront : ∃ tail, writeFields (field :: fields) ++ '\x7d' :: rest = '"' :: tail := by
      cases fields with
      | nil => exact ⟨_, by rw [writeFields, writeString]; rfl⟩
      | cons => exact ⟨_, by rw [writeFields_cons_cons, writeString]; rfl⟩
    obtain ⟨tail, htail⟩ := hfront
    rw [htail] at hfields ⊢
    rw [readValue, skipBlanks_cons (by rfl)]
    show (readFields fuel ('"' :: tail)).bind _ = _
    rw [hfields]
    exact congrArg (fun d => some (d, rest)) (recordOf_named _)

/-- **A written value is read back.** -/
theorem readsBack_of_isLegible {d : Document} (h : d.IsLegible) : ReadsBack d := by
  induction h with
  | null => exact fun _ _ _ _ => rfl
  | bool b => cases b <;> exact fun _ _ _ _ => rfl
  | integer h =>
    intro fuel rest _ hrest
    rw [write, readValue_text fuel _ hrest, Document.ofNumeral_ofInt h]
  | real h =>
    intro fuel rest _ hrest
    rw [write, if_pos h, readValue_text fuel _ hrest, Document.ofNumeral_numeral h]
  | text s =>
    intro fuel rest _ _
    rw [write, writeString_append, readValue, skipBlanks_cons (by rfl)]
    show (readString _).bind _ = _
    rw [readString_writeString]
    rfl
  | list _ ih => exact readsBack_list ih
  | record _ ih => exact readsBack_record ih
  | unreadable h => exact h.elim

end Json

/-- **The text of a document is read as the document.** -/
theorem Document.ofJson?_json {d : Document} (h : d.IsLegible) : ofJson? d.json = some d := by
  have hread := Json.readsBack_of_isLegible h (2 * (Json.write d).length + 1) [] (by omega)
    Json.afterValue_nil
  rw [List.append_nil] at hread
  rw [ofJson?, json, String.toList_ofList, Json.read, hread]
  rfl

/-! ## What is read -/

theorem Document.numbersFit_ofNumeral (n : Numeral) : (ofNumeral n).NumbersFit True := by
  have hreal (x : Binary64) : (ofNumeral.ofReal x).NumbersFit True := by
    rw [ofNumeral.ofReal]
    split
    · exact .real ‹_›
    · exact .unreadable trivial
  rw [ofNumeral]
  split
  · split
    · exact .integer ‹_›
    · exact hreal _
  · exact hreal _

namespace Json

theorem numbersFit_recordOf {fields : List (Option String × Document)}
    (h : ∀ field ∈ fields, field.2.NumbersFit True) : (recordOf fields).NumbersFit True := by
  rw [recordOf]
  split
  · rename_i named hnamed
    refine .record fun field hfield => ?_
    obtain ⟨⟨name, d⟩, hmem, heq⟩ := exists_of_mem_mapM hnamed hfield
    obtain ⟨text, -, rfl⟩ := Option.map_eq_some_iff.mp heq
    exact h _ hmem
  · exact .unreadable trivial

/-- Readers with this much fuel return documents whose numbers are in range. -/
structure ReadInRange (fuel : Nat) : Prop where
  value : ∀ {cs : List Char} {d : Document} {rest : List Char},
    readValue fuel cs = some (d, rest) → d.NumbersFit True
  items : ∀ {cs : List Char} {items : List Document} {rest : List Char},
    readItems fuel cs = some (items, rest) → ∀ d ∈ items, d.NumbersFit True
  fields : ∀ {cs : List Char} {fields : List (Option String × Document)} {rest : List Char},
    readFields fuel cs = some (fields, rest) → ∀ field ∈ fields, field.2.NumbersFit True

variable {fuel : Nat} {cs rest : List Char}

theorem ReadInRange.value_succ (ih : ReadInRange fuel) {d : Document}
    (h : readValue (fuel + 1) cs = some (d, rest)) : d.NumbersFit True := by
  rw [readValue] at h
  split at h
  · cases h
    exact .null
  · cases h
    exact .bool true
  · cases h
    exact .bool false
  · obtain ⟨⟨text, _⟩, -, h⟩ := Option.bind_eq_some_iff.mp h
    cases h
    cases text with
    | none => exact .unreadable trivial
    | some s => exact .text s
  · split at h
    · cases h
      exact .list fun _ h => nomatch h
    · obtain ⟨⟨items, _⟩, hitems, h⟩ := Option.bind_eq_some_iff.mp h
      cases h
      exact .list (ih.items hitems)
  · split at h
    · cases h
      exact .record fun _ h => nomatch h
    · obtain ⟨⟨fields, _⟩, hfields, h⟩ := Option.bind_eq_some_iff.mp h
      cases h
      exact numbersFit_recordOf (ih.fields hfields)
  · obtain ⟨⟨n, _⟩, -, h⟩ := Option.bind_eq_some_iff.mp h
    cases h
    exact Document.numbersFit_ofNumeral n

theorem ReadInRange.items_succ (ih : ReadInRange fuel) {items : List Document}
    (h : readItems (fuel + 1) cs = some (items, rest)) : ∀ d ∈ items, d.NumbersFit True := by
  rw [readItems] at h
  obtain ⟨⟨d, behind⟩, hd, h⟩ := Option.bind_eq_some_iff.mp h
  have hvalue := ih.value hd
  dsimp only at h
  split at h
  · obtain ⟨⟨items', _⟩, hitems, h⟩ := Option.bind_eq_some_iff.mp h
    cases h
    exact List.forall_mem_cons.mpr ⟨hvalue, ih.items hitems⟩
  · cases h
    exact List.forall_mem_singleton.mpr hvalue
  · cases h

theorem ReadInRange.fields_succ (ih : ReadInRange fuel) {fields : List (Option String × Document)}
    (h : readFields (fuel + 1) cs = some (fields, rest)) :
    ∀ field ∈ fields, field.2.NumbersFit True := by
  rw [readFields] at h
  split at h
  case h_2 => cases h
  obtain ⟨⟨name, afterName⟩, -, h⟩ := Option.bind_eq_some_iff.mp h
  dsimp only at h
  split at h
  case h_2 => cases h
  obtain ⟨⟨d, afterValue⟩, hd, h⟩ := Option.bind_eq_some_iff.mp h
  have hvalue := ih.value hd
  dsimp only at h
  split at h
  · obtain ⟨⟨fields', _⟩, hfields, h⟩ := Option.bind_eq_some_iff.mp h
    cases h
    exact List.forall_mem_cons.mpr ⟨hvalue, ih.fields hfields⟩
  · cases h
    exact List.forall_mem_singleton.mpr hvalue
  · cases h

theorem readInRange (fuel : Nat) : ReadInRange fuel := by
  induction fuel with
  | zero => exact ⟨fun h => (nomatch h), fun h => (nomatch h), fun h => (nomatch h)⟩
  | succ fuel ih => exact ⟨ih.value_succ, ih.items_succ, ih.fields_succ⟩

end Json

/-- **What a text is read as has its numbers in range.** -/
theorem Document.numbersFit_of_ofJson? {text : String} {d : Document} (h : ofJson? text = some d) :
    d.NumbersFit True := by
  obtain ⟨⟨read, rest⟩, hread, h⟩ := Option.bind_eq_some_iff.mp h
  dsimp only at h
  split at h
  · cases h
    exact (Json.readInRange _).value hread
  · cases h

end Downlink

import Downlink.Config.Document
import Downlink.Settings.Document
import Downlink.Proofs.Json.Form

/-!
# Round trips through JSON

Media, constraints, settings and configurations are written to JSON texts and read back, by any
JSON library.  A value is read back from its text if each of its numbers is read back from its own.
Where the library reads back every finite number, what is written of a value with finite numbers
reads as that value, to the last bit and with the sign of a zero.  A text has many other forms, with
lists for records, `null` for what is not set and fields left out; whatever it is, the value read of
it has a text of its own that reads the same.

## Results

* `JsonForm.decode_encode` — nothing but a number is ever lost.
* `RoundTrips.of_isForm` — a type with a document form makes the round trip.
* `Settings.summary_inj` — settings with finite rates are told apart by their summaries.
* `json_texts_round_trip` — all of the types together.
-/

set_option autoImplicit false

namespace Downlink

open Document

variable {library : JsonLibrary} {depth : Nat} {keeps : Binary64 → Prop}

/-- A type with a document form, and the binary64 numbers inside its values. -/
class JsonForm (α : Type) where
  toDocument : α → Document
  ofDocument? : DocumentFormat → Document → Option α
  numbers : α → List Binary64

namespace JsonForm

variable {α : Type} [JsonForm α]

/-- The compact JSON text of a value. -/
def encode (library : JsonLibrary) (a : α) : String := library.write (toDocument a)

/-- The value of a JSON text. -/
def decode (library : JsonLibrary) (text : String) : Option α :=
  (library.read text).bind (ofDocument? .json)

/-- All numbers of the value are finite. -/
def IsFinite (a : α) : Prop := ∀ x ∈ numbers a, x.isFinite = true

instance (a : α) : Decidable (IsFinite a) :=
  inferInstanceAs (Decidable (∀ x ∈ numbers a, x.isFinite = true))

end JsonForm

/-! ## Media -/

theorem Identifier.isForm {kind : IdentifierKind} :
    IsForm 0 (toDocument : Identifier kind → Document) ofDocument? fun _ => [] := by
  refine .of_numberless (fun id => ?_) fun id => .text id.text
  show Except.toOption (ofString? id.text) = some id
  rw [ofString?_text]
  rfl

instance : JsonForm Layer := ⟨Layer.toDocument, Layer.ofDocument?, fun l => [l.frameRate]⟩

theorem Layer.isForm : IsForm 1 toDocument (ofDocument? .json) fun l => [l.frameRate] where
  read_write l := by
    simp [toDocument, ofDocument?, Document.parts?, Parts.required, Parts.find?,
      isForm_uint32.read_write, isForm_uint64.read_write, isForm_binary64.read_write]
  expressible h :=
    expressible_record_cons (isForm_uint32.expressible_numberless _)
      (expressible_record_cons (isForm_binary64.expressible h)
        (expressible_record_cons (isForm_uint64.expressible_numberless _)
          expressible_record_nil))
  finite d l hd h := by
    obtain ⟨parts, hparts, h⟩ := Option.bind_eq_some_iff.mp h
    obtain ⟨height, -, h⟩ := Option.bind_eq_some_iff.mp h
    obtain ⟨frameRate, hrate, h⟩ := Option.bind_eq_some_iff.mp h
    obtain ⟨bitrate, -, h⟩ := Option.bind_eq_some_iff.mp h
    cases h
    exact (hd.parts? hparts).required isForm_binary64.finite hrate

instance : JsonForm MediaSource :=
  ⟨MediaSource.toDocument, MediaSource.ofDocument?, (·.layers.flatMap JsonForm.numbers)⟩

theorem MediaSource.isForm : IsForm 3 toDocument (ofDocument? .json) JsonForm.numbers where
  read_write s := by
    simp [toDocument, ofDocument?, Document.parts?, Parts.required, Parts.find?,
      Identifier.isForm.read_write, Layer.isForm.list.read_write]
  expressible h :=
    expressible_record_cons (Identifier.isForm.expressible_numberless _)
      (expressible_record_cons (Layer.isForm.list.expressible h) expressible_record_nil)
  finite d l hd h := by
    obtain ⟨parts, hparts, h⟩ := Option.bind_eq_some_iff.mp h
    obtain ⟨id, -, h⟩ := Option.bind_eq_some_iff.mp h
    obtain ⟨layers, hlayers, h⟩ := Option.bind_eq_some_iff.mp h
    cases h
    exact (hd.parts? hparts).required Layer.isForm.list.finite hlayers

instance : JsonForm Member :=
  ⟨Member.toDocument, Member.ofDocument?, (·.sources.flatMap JsonForm.numbers)⟩

theorem Member.isForm : IsForm 5 toDocument (ofDocument? .json) JsonForm.numbers where
  read_write s := by
    simp [toDocument, ofDocument?, Document.parts?, Parts.required, Parts.withDefault, Parts.find?,
      Identifier.isForm.read_write, MediaSource.isForm.list.read_write]
  expressible h :=
    expressible_record_cons (Identifier.isForm.expressible_numberless _)
      (expressible_record_cons (MediaSource.isForm.list.expressible h) expressible_record_nil)
  finite d l hd h := by
    obtain ⟨parts, hparts, h⟩ := Option.bind_eq_some_iff.mp h
    obtain ⟨id, -, h⟩ := Option.bind_eq_some_iff.mp h
    obtain ⟨sources, hsources, h⟩ := Option.bind_eq_some_iff.mp h
    cases h
    exact (hd.parts? hparts).withDefault (List.forall_mem_nil _) MediaSource.isForm.list.finite
      hsources

/-! ## Settings -/

instance : JsonForm VideoConstraints :=
  ⟨VideoConstraints.toDocument, VideoConstraints.ofDocument?,
    fun c => c.idealFrameRate.toList ++ c.maxFrameRate.toList⟩

theorem VideoConstraints.expressible_rateField {name : String} {rate : Option Binary64}
    {fields : List (String × Document)} (hrate : ∀ x ∈ rate, keeps x)
    (h : (record fields).Expressible keeps (depth + 1)) :
    (record (rateField name rate ++ fields)).Expressible keeps (depth + 1) := by
  cases rate with
  | none => exact h
  | some x => exact expressible_record_cons (.real (hrate x rfl)) h

theorem VideoConstraints.isForm : IsForm 1 toDocument (ofDocument? .json) JsonForm.numbers where
  read_write c := by
    obtain ⟨idealHeight, _ | ideal, maxHeight, _ | max⟩ := c <;>
      simp [toDocument, rateField, ofDocument?, Document.parts?, Parts.required, Parts.withDefault,
        Parts.find?, Document.nullable?, isForm_uint32.read_write, isForm_binary64.read_write]
  expressible {_ c} h := by
    have hrates := List.forall_mem_append.mp h
    refine expressible_record_cons (isForm_uint32.expressible_numberless _) ?_
    refine expressible_rateField (fun x hx => hrates.1 x (Option.mem_toList.mpr hx)) ?_
    refine expressible_record_cons (isForm_uint32.expressible_numberless _) ?_
    rw [← List.append_nil (rateField _ _)]
    exact expressible_rateField (fun x hx => hrates.2 x (Option.mem_toList.mpr hx))
      expressible_record_nil
  finite d l hd h := by
    obtain ⟨parts, hparts, h⟩ := Option.bind_eq_some_iff.mp h
    obtain ⟨idealHeight, -, h⟩ := Option.bind_eq_some_iff.mp h
    obtain ⟨ideal, hideal, h⟩ := Option.bind_eq_some_iff.mp h
    obtain ⟨maxHeight, -, h⟩ := Option.bind_eq_some_iff.mp h
    obtain ⟨max, hmax, h⟩ := Option.bind_eq_some_iff.mp h
    cases h
    have hrate {rate : Option Binary64} {index : Nat} {name : String}
        (h : parts.withDefault index name none (nullable? binary64?) = some rate) :
        ∀ x ∈ rate.toList, x.isFinite = true := by
      have hfinite : ∀ x ∈ rate, x.isFinite = true :=
        (hd.parts? hparts).withDefault (by simp) yields_binary64?.nullable? h
      exact fun x hx => hfinite x (Option.mem_toList.mp hx)
    exact List.forall_mem_append.mpr ⟨hrate hideal, hrate hmax⟩

instance : JsonForm Settings :=
  ⟨Settings.toDocument, Settings.ofDocument?,
    (·.constraints.entries.flatMap fun e => JsonForm.numbers e.2)⟩

theorem Strategy.isForm : IsForm 0 toDocument (ofDocument? .json) fun _ => [] :=
  .of_numberless (fun s => by cases s <;> rfl) fun s => .text s.name

theorem EffectiveConstraints.isForm : IsForm 2 toDocument
    (map? Identifier.ofText? (VideoConstraints.ofDocument? .json))
    (·.entries.flatMap fun e => JsonForm.numbers e.2) :=
  IsForm.map Identifier.isForm.read_write VideoConstraints.isForm

theorem Settings.isForm : IsForm 3 toDocument (ofDocument? .json) JsonForm.numbers where
  read_write s := by
    simp [toDocument, ofDocument?, Document.parts?, Parts.withDefault, Parts.find?,
      Strategy.isForm.read_write, Identifier.isForm.list.read_write,
      EffectiveConstraints.isForm.read_write, isForm_int32.read_write]
  expressible h :=
    expressible_record_cons (Strategy.isForm.expressible_numberless _)
      (expressible_record_cons
        ((Identifier.isForm.list.mono (by decide)).expressible fun _ h => by simp at h)
        (expressible_record_cons (EffectiveConstraints.isForm.expressible h)
          (expressible_record_cons (isForm_int32.expressible_numberless _)
            expressible_record_nil)))
  finite d s hd h := by
    obtain ⟨parts, hparts, h⟩ := Option.bind_eq_some_iff.mp h
    obtain ⟨strategy, -, h⟩ := Option.bind_eq_some_iff.mp h
    obtain ⟨selected, -, h⟩ := Option.bind_eq_some_iff.mp h
    obtain ⟨constraints, hconstraints, h⟩ := Option.bind_eq_some_iff.mp h
    obtain ⟨lastN, -, h⟩ := Option.bind_eq_some_iff.mp h
    cases h
    exact (hd.parts? hparts).withDefault (List.forall_mem_nil _) EffectiveConstraints.isForm.finite
      hconstraints

/-! ## Configurations -/

instance : JsonForm Config :=
  ⟨Config.toDocument, Config.ofDocument?,
    fun c => [c.bweChangeThreshold, c.onstagePreferredFrameRate]⟩

theorem Config.isFinite_defaultThreshold : Gate.defaultThreshold.isFinite = true := by
  decide +kernel

theorem Config.isFinite_defaultRate : (Binary64.ofNat 30).isFinite = true := by
  decide +kernel

theorem Config.isForm : IsForm 1 toDocument (ofDocument? .json) JsonForm.numbers where
  read_write c := by
    simp [toDocument, ofDocument?, ofParts?, strictReaders, Document.parts?, Parts.withDefault,
      Parts.find?, isForm_uint32.read_write, isForm_uint64.read_write, isForm_binary64.read_write,
      isForm_bool.read_write]
  expressible {_ c} h := by
    have hnumbers := List.forall_mem_cons.mp h
    refine expressible_record_cons (.real hnumbers.1) ?_
    refine expressible_record_cons (isForm_uint64.expressible_numberless _) ?_
    refine expressible_record_cons (isForm_uint64.expressible_numberless _) ?_
    refine expressible_record_cons (.bool _) ?_
    refine expressible_record_cons (isForm_uint32.expressible_numberless _) ?_
    refine expressible_record_cons (isForm_uint32.expressible_numberless _) ?_
    refine expressible_record_cons (isForm_uint32.expressible_numberless _) ?_
    exact expressible_record_cons (isForm_binary64.expressible hnumbers.2) expressible_record_nil
  finite d c hd h := by
    obtain ⟨parts, hparts, h⟩ := Option.bind_eq_some_iff.mp h
    obtain ⟨threshold, hthreshold, h⟩ := Option.bind_eq_some_iff.mp h
    obtain ⟨maxTime, -, h⟩ := Option.bind_eq_some_iff.mp h
    obtain ⟨watchdog, -, h⟩ := Option.bind_eq_some_iff.mp h
    obtain ⟨force, -, h⟩ := Option.bind_eq_some_iff.mp h
    obtain ⟨thumbnail, -, h⟩ := Option.bind_eq_some_iff.mp h
    obtain ⟨ideal, -, h⟩ := Option.bind_eq_some_iff.mp h
    obtain ⟨preferred, -, h⟩ := Option.bind_eq_some_iff.mp h
    obtain ⟨rate, hrate, h⟩ := Option.bind_eq_some_iff.mp h
    cases h
    have hparts := hd.parts? hparts
    refine List.forall_mem_cons.mpr ⟨?_, List.forall_mem_singleton.mpr ?_⟩
    · exact hparts.withDefault (p := (·.isFinite = true)) isFinite_defaultThreshold
        yields_binary64? hthreshold
    · exact hparts.withDefault (p := (·.isFinite = true)) isFinite_defaultRate
        yields_binary64? hrate

/-! ## Round trips -/

/-- **Nothing but a number is ever lost**: a value is read back from its text if its numbers are
read back from theirs. -/
theorem JsonForm.decode_encode {α : Type} [JsonForm α] (h : IsForm depth
    (toDocument : α → Document) (ofDocument? .json) numbers) (hlawful : library.Lawful)
    (hdepth : depth ≤ JsonLibrary.depthLimit) {a : α} (hkeeps : ∀ x ∈ numbers a, library.Keeps x) :
    decode library (encode library a) = some a := by
  rw [decode, encode, hlawful.read_write ((h.mono hdepth).expressible hkeeps)]
  exact h.read_write a

/-- Values survive their JSON text, and texts that are read have a normal form. -/
structure RoundTrips (library : JsonLibrary) (α : Type) [JsonForm α] : Prop where
  /-- The text of a value with finite numbers reads as the value. -/
  decode_encode : ∀ a : α, JsonForm.IsFinite a →
    JsonForm.decode library (JsonForm.encode library a) = some a
  /-- The value of any text reads the same from its own text. -/
  decode_again : ∀ (text : String) (a : α), JsonForm.decode library text = some a →
    JsonForm.decode library (JsonForm.encode library a) = some a

theorem RoundTrips.of_isForm {α : Type} [JsonForm α] (h : IsForm depth
    (JsonForm.toDocument : α → Document) (JsonForm.ofDocument? .json) JsonForm.numbers)
    (hlawful : library.Lawful) (hkeeps : library.KeepsFinite)
    (hdepth : depth ≤ JsonLibrary.depthLimit) : RoundTrips library α := by
  have hencode (a : α) (ha : JsonForm.IsFinite a) :
      JsonForm.decode library (JsonForm.encode library a) = some a :=
    JsonForm.decode_encode h hlawful hdepth fun x hx => hkeeps x (ha x hx)
  refine ⟨hencode, fun text a hdecode => hencode a ?_⟩
  obtain ⟨d, hd, hread⟩ := Option.bind_eq_some_iff.mp hdecode
  exact h.finite (hlawful.numbersFit hd) hread

/-- **Settings with finite rates are told apart by their text**, down to the sign of a zero. -/
theorem Settings.summary_inj (hlawful : library.Lawful) (hkeeps : library.KeepsFinite)
    {s s' : Settings} (hs : JsonForm.IsFinite s) (hs' : JsonForm.IsFinite s') :
    s.summary library = s'.summary library ↔ s = s' := by
  refine ⟨fun h => ?_, congrArg (summary · library)⟩
  have hround : RoundTrips library Settings :=
    .of_isForm Settings.isForm hlawful hkeeps (by decide)
  have hread := hround.decode_encode s hs
  have hread' := hround.decode_encode s' hs'
  have hsame : JsonForm.encode library s = JsonForm.encode library s' := h
  rw [hsame, hread'] at hread
  exact (Option.some.inj hread).symm

/-- **Every value with finite numbers is read back from its JSON text**, bit by bit; every text that
is read has a normal form with the same value; and settings with one summary are one.  The library
does what JSON libraries do, and reads every finite number back from the digits it writes. -/
theorem json_texts_round_trip (hlawful : library.Lawful) (hkeeps : library.KeepsFinite) :
    RoundTrips library Layer ∧ RoundTrips library MediaSource ∧ RoundTrips library Member ∧
      RoundTrips library VideoConstraints ∧ RoundTrips library Settings ∧
      RoundTrips library Config ∧
      ∀ s s' : Settings, JsonForm.IsFinite s → JsonForm.IsFinite s' →
        (s.summary library = s'.summary library ↔ s = s') :=
  ⟨.of_isForm Layer.isForm hlawful hkeeps (by decide),
    .of_isForm MediaSource.isForm hlawful hkeeps (by decide),
    .of_isForm Member.isForm hlawful hkeeps (by decide),
    .of_isForm VideoConstraints.isForm hlawful hkeeps (by decide),
    .of_isForm Settings.isForm hlawful hkeeps (by decide),
    .of_isForm Config.isForm hlawful hkeeps (by decide),
    fun _ _ => Settings.summary_inj hlawful hkeeps⟩

/-- Settings with a fractional rate and a rate that is zero. -/
def fractionalSettings (zero : Binary64) : Settings where
  constraints := .ofList [(⟨"erin", by decide⟩,
    { idealHeight := 720, idealFrameRate := some (.ofDecimal false 2997 (-2)), maxHeight := 720,
      maxFrameRate := some zero })]

/-- The zeros have texts of their own; a list with a `null` and a field left out is normalised. -/
theorem json_texts_round_trip_signed_zeros :
    let library := JsonLibrary.plain
    let s := fractionalSettings (.zero true)
    let s' := fractionalSettings (.zero false)
    let c : VideoConstraints := { idealHeight := 720, maxHeight := 360 }
    library.Lawful ∧ library.KeepsFinite ∧
      JsonForm.IsFinite s ∧ JsonForm.IsFinite s' ∧ s.summary library ≠ s'.summary library ∧
      JsonForm.decode library (JsonForm.encode library s) = some s ∧
      JsonForm.decode library "[720, null, 360]" = some c ∧
      JsonForm.decode library (JsonForm.encode library c) = some c := by
  intro library s s' c
  have hlawful : library.Lawful := JsonLibrary.plain_lawful
  have hkeeps : library.KeepsFinite := fun _ => JsonLibrary.plain_keeps_iff.mpr
  have hs : JsonForm.IsFinite s := by decide +kernel
  have hs' : JsonForm.IsFinite s' := by decide +kernel
  have hc : JsonForm.decode library "[720, null, 360]" = some c := by decide +kernel
  have hne : s ≠ s' := by decide +kernel
  obtain ⟨-, -, -, hconstraints, hsettings, -, hsummary⟩ := json_texts_round_trip hlawful hkeeps
  exact ⟨hlawful, hkeeps, hs, hs', fun h => hne ((hsummary s s' hs hs').mp h),
    hsettings.decode_encode s hs, hc, hconstraints.decode_again _ c hc⟩

end Downlink

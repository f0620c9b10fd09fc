import Downlink.Document.Reading
import Downlink.Proofs.Json.Library
import Downlink.Proofs.SortedMap

/-!
# Document forms

How a type is written and read, as one notion: what is written reads back, JSON has words for it as
long as it has words for its numbers, and what is read of a JSON text has finite numbers.  Forms of
lists and maps come from those of their values.

## Results

* `Document.IsForm.list`, `Document.IsForm.map` — forms of containers.
* `Document.yields_binary64?` — numbers that are read are finite, integers among them.
-/

set_option autoImplicit false

namespace Downlink

variable {α : Type} {depth : Nat} {keeps : Binary64 → Prop}

namespace Document

/-- Whatever a JSON document is read as has the property. -/
def Yields (read : Document → Option α) (p : α → Prop) : Prop :=
  ∀ ⦃d a⦄, d.NumbersFit True → read d = some a → p a

/-- A way to write the values of a type and one to read them belong together; `numbers` are the
binary64 numbers inside a value, and `depth` is how deep it nests. -/
structure IsForm (depth : Nat) (write : α → Document) (read : Document → Option α)
    (numbers : α → List Binary64) : Prop where
  read_write (a : α) : read (write a) = some a
  expressible {keeps : Binary64 → Prop} {a : α} (h : ∀ x ∈ numbers a, keeps x) :
    (write a).Expressible keeps depth
  finite : Yields read fun a => ∀ x ∈ numbers a, x.isFinite = true

variable {write : α → Document} {read : Document → Option α} {numbers : α → List Binary64}

theorem IsForm.mono (h : IsForm depth write read numbers) {deeper : Nat} (hle : depth ≤ deeper) :
    IsForm deeper write read numbers where
  read_write := h.read_write
  expressible hkeeps := (h.expressible hkeeps).mono hle
  finite := h.finite

/-! ## Single values -/

/-- Single values without binary64 numbers have nothing to lose. -/
theorem IsForm.of_numberless (hread : ∀ a, read (write a) = some a)
    (hwords : ∀ {keeps : Binary64 → Prop} (a : α), (write a).Expressible keeps 0) :
    IsForm 0 write read fun _ => [] where
  read_write := hread
  expressible {_ a} _ := hwords a
  finite _ _ _ _ := List.forall_mem_nil _

theorem IsForm.expressible_numberless (h : IsForm 0 write read fun _ => []) (a : α) :
    (write a).Expressible keeps depth :=
  (h.mono depth.zero_le).expressible (List.forall_mem_nil _)

theorem integer?_integer {lower upper i : Int} (h : lower ≤ i ∧ i ≤ upper) :
    integer? lower upper (.integer i) = some i :=
  if_pos h

theorem expressible_nat {n : Nat} (h : n < UInt64.size) : (nat n).Expressible keeps 0 :=
  .integer ⟨Int.le_trans (by decide) (Int.natCast_nonneg n), Int.ofNat_lt.mpr h⟩

theorem isForm_uint32 : IsForm 0 (fun x : UInt32 => .nat x.toNat) uint32? fun _ => [] := by
  refine .of_numberless (fun x => ?_) fun x => expressible_nat (Nat.lt_trans x.toNat_lt (by decide))
  have hlt : x.toNat < UInt32.size := x.toNat_lt
  rw [uint32?, nat, integer?_integer ⟨Int.natCast_nonneg _, by omega⟩]
  exact congrArg some UInt32.ofNat_toNat

theorem isForm_uint64 : IsForm 0 (fun x : UInt64 => .nat x.toNat) uint64? fun _ => [] := by
  refine .of_numberless (fun x => ?_) fun x => expressible_nat x.toNat_lt
  have hlt : x.toNat < UInt64.size := x.toNat_lt
  rw [uint64?, nat, integer?_integer ⟨Int.natCast_nonneg _, by omega⟩]
  exact congrArg some UInt64.ofNat_toNat

theorem isForm_int32 : IsForm 0 (fun x : Int32 => .integer x.toInt) int32? fun _ => [] := by
  refine .of_numberless (fun x => ?_) fun x => .integer ⟨?_, ?_⟩
  · rw [int32?, integer?_integer ⟨x.minValue_le_toInt, x.toInt_le⟩]
    exact congrArg some x.ofInt_toInt
  · exact Int.le_trans (by decide) x.minValue_le_toInt
  · exact Int.lt_of_le_of_lt x.toInt_le (by decide)

theorem isForm_bool : IsForm 0 Document.bool bool? fun _ => [] :=
  .of_numberless (fun _ => rfl) .bool

theorem yields_binary64? : Yields binary64? (·.isFinite = true) := by
  intro d x hd hread
  cases hd with
  | integer h =>
    cases hread
    have hlower : Int64.minValue.toInt = -2 ^ 63 := by decide
    have hupper : UInt64.size = 2 ^ 64 := rfl
    exact Binary64.isFinite_ofInt (by omega)
  | real h =>
    cases hread
    exact h
  | _ => cases hread

theorem isForm_binary64 : IsForm 0 Document.real binary64? fun x => [x] where
  read_write _ := rfl
  expressible h := .real (h _ List.mem_cons_self)
  finite _ _ hd hread := List.forall_mem_singleton.mpr (yields_binary64? hd hread)

/-! ## Lists and maps -/

theorem IsForm.list (h : IsForm depth write read numbers) :
    IsForm (depth + 1) (fun as => .list (as.map write)) (list? read) (·.flatMap numbers) where
  read_write as := mapM_map_eq_some fun a _ => h.read_write a
  expressible {_ as} hkeeps := by
    refine .list (List.forall_mem_map.mpr fun a ha => h.expressible fun x hx => hkeeps x ?_)
    exact List.mem_flatMap.mpr ⟨a, ha, hx⟩
  finite d as hd hread := by
    cases hd with
    | list hitems =>
      intro x hx
      obtain ⟨a, ha, hx⟩ := List.mem_flatMap.mp hx
      obtain ⟨d, hd, hread⟩ := exists_of_mem_mapM hread ha
      exact h.finite (hitems d hd) hread x hx
    | _ => cases hread

/-- Keys are written as names, and read back. -/
theorem IsForm.map {κ : Type} [Ord κ] [Std.TransOrd κ] [Std.LawfulEqOrd κ] {name : κ → String}
    {key : String → Option κ} (hkey : ∀ k, key (name k) = some k)
    (h : IsForm depth write read numbers) :
    IsForm (depth + 1)
      (fun m : SortedMap κ α => .record (m.entries.map fun (k, a) => (name k, write a)))
      (map? key read) (·.entries.flatMap fun e => numbers e.2) where
  read_write m := by
    have hentries : (m.entries.map fun (k, a) => (name k, write a)).mapM
        (fun (name, d) => do some (← key name, ← read d)) = some m.entries :=
      mapM_map_eq_some fun (k, a) _ => by simp [hkey, h.read_write]
    show Option.map _ _ = _
    rw [hentries]
    exact congrArg some (SortedMap.ofList_entries m)
  expressible {_ m} hkeeps := by
    refine .record (List.forall_mem_map.mpr fun e he => h.expressible fun x hx => hkeeps x ?_)
    exact List.mem_flatMap.mpr ⟨e, he, hx⟩
  finite d m hd hread := by
    cases hd with
    | record hfields =>
      obtain ⟨entries, hentries, rfl⟩ := Option.map_eq_some_iff.mp hread
      intro x hx
      obtain ⟨e, he, hx⟩ := List.mem_flatMap.mp hx
      obtain ⟨⟨text, d⟩, hd, hread⟩ := exists_of_mem_mapM hentries (SortedMap.mem_entries_ofList he)
      obtain ⟨k, -, hread⟩ := Option.bind_eq_some_iff.mp hread
      obtain ⟨a, ha, hread⟩ := Option.bind_eq_some_iff.mp hread
      cases hread
      exact h.finite (hfields _ hd) ha x hx
    | _ => cases hread

/-! ## Structures -/

theorem expressible_record_nil : (record []).Expressible keeps (depth + 1) :=
  .record (List.forall_mem_nil _)

theorem expressible_record_cons {name : String} {d : Document}
    {fields : List (String × Document)} (hd : d.Expressible keeps depth)
    (h : (record fields).Expressible keeps (depth + 1)) :
    (record ((name, d) :: fields)).Expressible keeps (depth + 1) := by
  cases h with
  | record h => exact .record (List.forall_mem_cons.mpr ⟨hd, h⟩)

theorem Yields.nullable? {p : α → Prop} (h : Yields read p) :
    Yields (nullable? read) (∀ a ∈ ·, p a) := by
  intro d o hd hread a ha
  unfold Document.nullable? at hread
  split at hread
  · cases hread
    exact nomatch ha
  · obtain ⟨b, hb, rfl⟩ := Option.map_eq_some_iff.mp hread
    cases ha
    exact h hd hb

end Document

namespace Parts

/-- The numbers of each field are in range. -/
def NumbersFit (parts : Parts) : Prop :=
  ∀ ⦃index name d⦄, parts.find? index name = some (some d) → d.NumbersFit True

variable {parts : Parts} {index : Nat} {name : String} {read : Document → Option α} {p : α → Prop}
  {a : α}

theorem NumbersFit.required (hparts : parts.NumbersFit) (hread : Document.Yields read p)
    (h : parts.required index name read = some a) : p a := by
  obtain ⟨found, hfound, h⟩ := Option.bind_eq_some_iff.mp h
  obtain ⟨d, rfl, h⟩ := Option.bind_eq_some_iff.mp h
  exact hread (hparts hfound) h

theorem NumbersFit.withDefault (hparts : parts.NumbersFit) {default : α} (hdefault : p default)
    (hread : Document.Yields read p) (h : parts.withDefault index name default read = some a) :
    p a := by
  obtain ⟨found, hfound, h⟩ := Option.bind_eq_some_iff.mp h
  cases found with
  | none =>
    cases h
    exact hdefault
  | some d => exact hread (hparts hfound) h

end Parts

theorem Document.NumbersFit.parts? {d : Document} (hd : d.NumbersFit True)
    {format : DocumentFormat} {count : Nat} {parts : Parts}
    (h : d.parts? format count = some parts) : parts.NumbersFit := by
  intro index name field hfind
  cases hd with
  | record hfields =>
    cases h
    rw [Parts.find?] at hfind
    split at hfind
    · cases hfind
    · rename_i heq
      cases hfind
      exact hfields _ (List.mem_of_mem_filter (heq ▸ List.mem_singleton_self _))
    · cases hfind
  | list hitems =>
    obtain ⟨-, h⟩ := Option.ite_none_right_eq_some.mp h
    cases h
    exact hitems _ (List.mem_of_getElem? (Option.some.inj hfind))
  | _ => cases h

end Downlink

/-!
# Sorted maps

A finite map kept as the list of its entries in ascending order of keys.  The order is part of the
type, so a map has one representation: maps that answer every look-up alike are equal.

## Results

* `find?_insert` — an insertion answers for its own key and changes no other answer.
* `find?_eq_some_iff` — look-up finds exactly the entries.
* `mem_entries_ofList` — a map made of a list has no entries but those of the list.
-/

set_option autoImplicit false

namespace Downlink

universe u v

/-- Entries in strictly ascending order of keys. -/
structure SortedMap (κ : Type u) (α : Type v) [Ord κ] where
  entries : List (κ × α)
  ascending : entries.Pairwise fun a b => compare a.1 b.1 = .lt

namespace SortedMap

variable {κ : Type u} {α : Type v} [Ord κ]

instance [DecidableEq κ] [DecidableEq α] : DecidableEq (SortedMap κ α)
  | ⟨a, _⟩, ⟨b, _⟩ => if h : a = b then .isTrue (by subst h; rfl) else .isFalse (by simp [h])

/-- `==` compares the entries in order, keys and values by their own `==`. -/
instance [BEq κ] [BEq α] : BEq (SortedMap κ α) := ⟨fun a b => a.entries == b.entries⟩

theorem eq_of_entries_eq {m m' : SortedMap κ α} (h : m.entries = m'.entries) : m = m' := by
  cases m
  cases m'
  congr

def empty : SortedMap κ α := ⟨[], .nil⟩

instance : EmptyCollection (SortedMap κ α) := ⟨empty⟩

/-- Puts an entry in its place, over an entry of the same key. -/
def insertEntry (k : κ) (a : α) : List (κ × α) → List (κ × α)
  | [] => [(k, a)]
  | e :: rest =>
    match compare k e.1 with
    | .lt => (k, a) :: e :: rest
    | .eq => (k, a) :: rest
    | .gt => e :: insertEntry k a rest

def valueOf? (k : κ) : List (κ × α) → Option α
  | [] => none
  | e :: rest => if compare k e.1 = .eq then some e.2 else valueOf? k rest

/-- The value of a key. -/
def find? (m : SortedMap κ α) (k : κ) : Option α := valueOf? k m.entries

theorem mem_insertEntry {k : κ} {a : α} {l : List (κ × α)} {e : κ × α}
    (h : e ∈ insertEntry k a l) : e = (k, a) ∨ e ∈ l := by
  induction l with
  | nil => simpa [insertEntry] using h
  | cons hd tl ih =>
    rw [insertEntry] at h
    split at h
    · simpa using h
    · rcases List.mem_cons.mp h with h | h
      · exact .inl h
      · exact .inr (List.mem_cons_of_mem _ h)
    · rcases List.mem_cons.mp h with h | h
      · exact .inr (h ▸ List.mem_cons_self)
      · exact (ih h).imp id (List.mem_cons_of_mem _)

section Lawful

variable [Std.TransOrd κ]

theorem ascending_insertEntry {k : κ} {a : α} {l : List (κ × α)}
    (h : l.Pairwise fun x y => compare x.1 y.1 = .lt) :
    (insertEntry k a l).Pairwise fun x y => compare x.1 y.1 = .lt := by
  induction l with
  | nil => simp [insertEntry]
  | cons e rest ih =>
    have hrest := List.pairwise_cons.mp h
    rw [insertEntry]
    split
    · rename_i hlt
      refine List.pairwise_cons.mpr ⟨fun x hx => ?_, h⟩
      rcases List.mem_cons.mp hx with rfl | hx
      · exact hlt
      · exact Std.TransCmp.lt_trans hlt (hrest.1 x hx)
    · rename_i heq
      exact List.pairwise_cons.mpr
        ⟨fun x hx => (Std.TransCmp.congr_left heq).trans (hrest.1 x hx), hrest.2⟩
    · rename_i hgt
      refine List.pairwise_cons.mpr ⟨fun x hx => ?_, ih hrest.2⟩
      rcases mem_insertEntry hx with rfl | hx
      · exact Std.OrientedCmp.lt_of_gt hgt
      · exact hrest.1 x hx

/-- Sets the value of a key. -/
def insert (m : SortedMap κ α) (k : κ) (a : α) : SortedMap κ α :=
  ⟨insertEntry k a m.entries, ascending_insertEntry m.ascending⟩

/-- Of several entries with one key the last one counts. -/
def ofList (l : List (κ × α)) : SortedMap κ α :=
  l.foldl (fun m e => m.insert e.1 e.2) empty

theorem mem_entries_ofList {l : List (κ × α)} {e : κ × α} (h : e ∈ (ofList l).entries) : e ∈ l := by
  suffices hfold : ∀ (l : List (κ × α)) (m : SortedMap κ α),
      e ∈ (l.foldl (fun m e => m.insert e.1 e.2) m).entries → e ∈ m.entries ∨ e ∈ l by
    exact (hfold l empty h).resolve_left List.not_mem_nil
  intro l
  induction l with
  | nil => exact fun m he => .inl he
  | cons hd tl ih =>
    intro m he
    rcases ih _ he with he | he
    · rcases mem_insertEntry he with rfl | he
      · exact .inr List.mem_cons_self
      · exact .inl he
    · exact .inr (List.mem_cons_of_mem _ he)

theorem valueOf?_insertEntry (k j : κ) (a : α) (l : List (κ × α)) :
    valueOf? j (insertEntry k a l)
      = if compare j k = .eq then some a else valueOf? j l := by
  induction l with
  | nil => simp [insertEntry, valueOf?]
  | cons e rest ih =>
    rw [insertEntry]
    split
    · simp [valueOf?]
    · rename_i heq
      simp only [valueOf?, Std.TransCmp.congr_right heq]
      split <;> rfl
    · rename_i hgt
      simp only [valueOf?, ih]
      by_cases hj : compare j k = .eq
      · have : compare j e.1 = .gt := (Std.TransCmp.congr_left hj).trans hgt
        simp [hj, this]
      · simp [hj]

theorem find?_insert (m : SortedMap κ α) (k j : κ) (a : α) :
    (m.insert k a).find? j = if compare j k = .eq then some a else m.find? j :=
  valueOf?_insertEntry k j a m.entries

end Lawful

theorem valueOf?_eq_some_iff [Std.TransOrd κ] [Std.LawfulEqOrd κ] {k : κ} {a : α}
    {l : List (κ × α)} (h : l.Pairwise fun x y => compare x.1 y.1 = .lt) :
    valueOf? k l = some a ↔ (k, a) ∈ l := by
  induction l with
  | nil => simp [valueOf?]
  | cons e rest ih =>
    have hrest := List.pairwise_cons.mp h
    simp only [valueOf?]
    split
    · rename_i heq
      obtain rfl := Std.LawfulEqCmp.eq_of_compare heq
      constructor
      · intro h
        cases h
        exact List.mem_cons_self
      · intro h
        rcases List.mem_cons.mp h with h | h
        · exact congrArg (some ·.2) h.symm
        · have := hrest.1 _ h
          exact absurd (this.symm.trans Std.ReflCmp.compare_self) (by decide)
    · rename_i hne
      rw [ih hrest.2, List.mem_cons]
      refine ⟨.inr, fun h => h.resolve_left fun h => hne ?_⟩
      rw [← h]
      exact Std.ReflCmp.compare_self

theorem find?_eq_some_iff [Std.TransOrd κ] [Std.LawfulEqOrd κ] {m : SortedMap κ α} {k : κ} {a : α} :
    m.find? k = some a ↔ (k, a) ∈ m.entries :=
  valueOf?_eq_some_iff m.ascending

end SortedMap

end Downlink

import Downlink.Proofs.Sameness
import Downlink.Proofs.SortedMap
import Downlink.Settings.Signaling

/-!
# What was signaled

The signaling remembers what it derived last.  That is always what the rule gives for the list and
the cap signaled last, so two signals are told apart exactly when the rule tells them apart, and
nothing else that was signaled before leaves a trace.

## Results

* `DerivedSelection.agrees_of_iff` — what the rule gives is compared exactly.
* `SelectionSignaling.setListed_signaled`, `SelectionSignaling.setMaxFrameHeight_signaled` — a
  signal takes its place, and is reported if the rule gives something else for it.
* `DerivedSelection.follows_iff` — the rule, said by what is found under every participant.
* `SelectionSignaling.run_start` — after any history the state is that of its last list and cap.
* `SelectionSignaling.history_follows_rule` — so what is remembered follows the rule, and a signal
  is reported exactly if it makes a difference to the settings.
-/

set_option autoImplicit false

namespace Downlink

namespace DerivedSelection

variable {ideal ideal' cap cap' : UInt32} {listed listed' : List ParticipantId}

/-- Everybody listed is given one height, and no rate. -/
theorem eq_ofHeight_of_mem_constraints {e : ParticipantId × VideoConstraints}
    (h : e ∈ (of ideal cap listed).constraints.entries) : e.2 = .ofHeight (min ideal cap) := by
  obtain ⟨id, _, rfl⟩ := List.mem_map.mp (SortedMap.mem_entries_ofList h)
  rfl

theorem constraints_eq_of_beq
    (h : ((of ideal cap listed).constraints == (of ideal' cap' listed').constraints) = true) :
    (of ideal cap listed).constraints = (of ideal' cap' listed').constraints := by
  refine SortedMap.eq_of_entries_eq (eq_of_list_beq ?_ h)
  intro e he e' hbeq
  obtain ⟨hid, hconstraints⟩ := Bool.and_eq_true_iff.mp hbeq
  have hheight := eq_ofHeight_of_mem_constraints he
  rw [hheight] at hconstraints
  have hequal := VideoConstraints.eq_of_ofHeight_beq hconstraints
  exact Prod.ext (eq_of_beq hid) (hheight.trans hequal)

/-- **What the rule gives is compared exactly.** -/
theorem agrees_of_iff : (of ideal cap listed).agrees (of ideal' cap' listed') = true ↔
    of ideal cap listed = of ideal' cap' listed' := by
  constructor
  · intro h
    simp only [agrees, Bool.and_eq_true, beq_iff_eq] at h
    obtain ⟨⟨hstrategy, hconstraints⟩, hselected⟩ := h
    have hconstraints := constraints_eq_of_beq hconstraints
    generalize of ideal cap listed = d at *
    generalize of ideal' cap' listed' = d' at *
    cases d
    cases d'
    congr
  · intro h
    have hrates : EffectiveConstraints.RatesAreNumbers (of ideal cap listed).constraints := by
      intro e he
      rw [eq_ofHeight_of_mem_constraints he]
      exact VideoConstraints.ratesAreNumbers_ofHeight _
    rw [← h, agrees, EffectiveConstraints.beq_self_iff.mpr hrates]
    simp

end DerivedSelection

namespace SelectionSignaling

/-- A list and a cap were signaled, and all that is remembered follows from them. -/
def signaled (ideal cap : UInt32) (listed : List ParticipantId) : SelectionSignaling :=
  ⟨ideal, cap, listed, .of ideal cap listed⟩

/-- At first nobody is listed, and there is no cap. -/
theorem start_eq_signaled (ideal : UInt32) : start ideal = signaled ideal 4294967295 [] := rfl

variable (ideal cap : UInt32) (listed : List ParticipantId)

theorem derive_signaled (cap' : UInt32) (listed' : List ParticipantId) :
    derive ⟨ideal, cap', listed', .of ideal cap listed⟩ =
      (signaled ideal cap' listed',
        decide (DerivedSelection.of ideal cap' listed' ≠ .of ideal cap listed)) := by
  have hsame : (DerivedSelection.of ideal cap' listed').agrees (.of ideal cap listed) =
      decide (DerivedSelection.of ideal cap' listed' = .of ideal cap listed) := by
    rw [Bool.eq_iff_iff, DerivedSelection.agrees_of_iff, decide_eq_true_iff]
  rw [derive, hsame, ← decide_not]
  rfl

/-- **A list takes the place of the one signaled before**, and it is reported if the rule gives
something else for it. -/
theorem setListed_signaled (listed' : List ParticipantId) :
    (signaled ideal cap listed).setListed listed' =
      (signaled ideal cap listed',
        decide (DerivedSelection.of ideal cap listed' ≠ .of ideal cap listed)) := by
  by_cases h : listed = listed'
  · subst h
    simp [setListed, signaled]
  · rw [signaled, setListed, if_neg h]
    exact derive_signaled ideal cap listed cap listed'

/-- **A cap takes the place of the one signaled before**, and it is reported if the rule gives
something else for it. -/
theorem setMaxFrameHeight_signaled (cap' : UInt32) :
    (signaled ideal cap listed).setMaxFrameHeight cap' =
      (signaled ideal cap' listed,
        decide (DerivedSelection.of ideal cap' listed ≠ .of ideal cap listed)) := by
  by_cases h : cap = cap'
  · subst h
    simp [setMaxFrameHeight, signaled]
  · rw [signaled, setMaxFrameHeight, if_neg h]
    exact derive_signaled ideal cap listed cap' listed

end SelectionSignaling

/-! ## The rule -/

namespace DerivedSelection

/-- What a list and a cap call for: tiles and nobody selected if more than one is listed, else the
stage and those listed; and for everybody listed the ideal height, at most the cap. -/
structure Follows (d : DerivedSelection) (ideal cap : UInt32) (listed : List ParticipantId) :
    Prop where
  tiles : 1 < listed.length → d.strategy = .tileView ∧ d.selected = []
  stage : listed.length ≤ 1 → d.strategy = .stageView ∧ d.selected = listed
  constraints : ∀ id, d.constraints.find? id =
    if id ∈ listed then some (.ofHeight (min ideal cap)) else none

variable {ideal cap : UInt32} {listed : List ParticipantId}

theorem find?_constraints_of (id : ParticipantId) : (of ideal cap listed).constraints.find? id =
    if id ∈ listed then some (.ofHeight (min ideal cap)) else none := by
  rw [of, SortedMap.find?_ofList, List.filter_map, List.getLast?_map, Option.map_map]
  -- the entries under `id` are the mentions of `id` in the list
  have hmentions : listed.filter ((fun e : ParticipantId × VideoConstraints => e.1 = id) ∘
      (·, .ofHeight (min ideal cap))) = listed.filter (· = id) := rfl
  rw [hmentions]
  by_cases hid : id ∈ listed
  · have hne : listed.filter (· = id) ≠ [] :=
      List.ne_nil_of_mem (List.mem_filter.mpr ⟨hid, decide_eq_true rfl⟩)
    rw [if_pos hid, List.getLast?_eq_some_getLast hne]
    rfl
  · have hnil : listed.filter (· = id) = [] := by
      rw [List.filter_eq_nil_iff]
      rintro other hother hsame
      exact hid (of_decide_eq_true hsame ▸ hother)
    rw [if_neg hid, hnil]
    rfl

theorem follows_of (ideal cap : UInt32) (listed : List ParticipantId) :
    (of ideal cap listed).Follows ideal cap listed where
  tiles hmany := by simp [of, hmany]
  stage hfew := by simp [of, Nat.not_lt.mpr hfew]
  constraints := find?_constraints_of

/-- **There is one selection that follows from a list and a cap.** -/
theorem follows_iff {d : DerivedSelection} :
    d.Follows ideal cap listed ↔ d = of ideal cap listed := by
  constructor
  · intro h
    have hof := follows_of ideal cap listed
    have hconstraints : d.constraints = (of ideal cap listed).constraints :=
      SortedMap.ext_find? fun id => (h.constraints id).trans (hof.constraints id).symm
    have hlayout : d.strategy = (of ideal cap listed).strategy ∧
        d.selected = (of ideal cap listed).selected := by
      rcases Nat.lt_or_ge 1 listed.length with hmany | hfew
      · rw [(h.tiles hmany).1, (h.tiles hmany).2, (hof.tiles hmany).1, (hof.tiles hmany).2]
        exact ⟨rfl, rfl⟩
      · rw [(h.stage hfew).1, (h.stage hfew).2, (hof.stage hfew).1, (hof.stage hfew).2]
        exact ⟨rfl, rfl⟩
    generalize of ideal cap listed = d' at *
    cases d
    cases d'
    congr
    · exact hlayout.1
    · exact hlayout.2
  · rintro rfl
    exact follows_of ideal cap listed

end DerivedSelection

/-! ## Histories -/

/-- A list or a cap that is signaled. -/
inductive Signal where
  | list (listed : List ParticipantId)
  | cap (maxFrameHeight : UInt32)
deriving DecidableEq

namespace Signal

def listed? : Signal → Option (List ParticipantId)
  | list listed => some listed
  | cap _ => none

def cap? : Signal → Option UInt32
  | list _ => none
  | cap maxFrameHeight => some maxFrameHeight

end Signal

namespace SelectionSignaling

def signal (s : SelectionSignaling) : Signal → SelectionSignaling × Bool
  | .list listed => s.setListed listed
  | .cap maxFrameHeight => s.setMaxFrameHeight maxFrameHeight

/-- One signal after the other. -/
def run (s : SelectionSignaling) (past : List Signal) : SelectionSignaling :=
  past.foldl (fun s next => (s.signal next).1) s

/-- The list signaled last; at first nobody is listed. -/
def lastListed (past : List Signal) : List ParticipantId :=
  (past.filterMap Signal.listed?).getLast?.getD []

/-- The cap signaled last; at first there is none. -/
def lastCap (past : List Signal) : UInt32 :=
  (past.filterMap Signal.cap?).getLast?.getD 4294967295

theorem lastListed_concat (past : List Signal) (next : Signal) :
    lastListed (past ++ [next]) = next.listed?.getD (lastListed past) := by
  cases h : next.listed? <;> simp [lastListed, List.filterMap_append, h]

theorem lastCap_concat (past : List Signal) (next : Signal) :
    lastCap (past ++ [next]) = next.cap?.getD (lastCap past) := by
  cases h : next.cap? <;> simp [lastCap, List.filterMap_append, h]

/-- A signal of either kind takes its place, and is reported if the rule gives something else. -/
theorem signal_signaled (ideal cap : UInt32) (listed : List ParticipantId) (next : Signal) :
    let cap' := next.cap?.getD cap
    let listed' := next.listed?.getD listed
    (signaled ideal cap listed).signal next = (signaled ideal cap' listed',
      decide (DerivedSelection.of ideal cap' listed' ≠ .of ideal cap listed)) := by
  cases next with
  | list listed' => exact setListed_signaled ideal cap listed listed'
  | cap cap' => exact setMaxFrameHeight_signaled ideal cap listed cap'

/-- **After any history the state is that of its last list and cap.** -/
theorem run_start (ideal : UInt32) (past : List Signal) :
    (start ideal).run past = signaled ideal (lastCap past) (lastListed past) := by
  induction past using List.reverseRecOn with
  | nil => exact start_eq_signaled ideal
  | append_singleton past next ih =>
    rw [run, List.foldl_concat, ← run, ih, signal_signaled, lastCap_concat, lastListed_concat]

/-- Settings tell apart what was derived. -/
theorem applyTo_eq_iff {s s' : SelectionSignaling} {base : Settings} :
    s.applyTo base = s'.applyTo base ↔ s.derived = s'.derived := by
  constructor
  · intro h
    obtain ⟨hstrategy, hselected, hconstraints, _⟩ := Settings.mk.inj h
    generalize s.derived = d at *
    generalize s'.derived = d' at *
    cases d
    cases d'
    congr
  · intro h
    rw [applyTo, applyTo, h]

/-- **What is remembered of a history follows the rule** for the list and the cap signaled last,
and for nothing else.  Whatever settings it is applied to: a further signal is reported exactly if
it makes a difference to them, and their limit on participants stays. -/
theorem history_follows_rule (ideal : UInt32) (past : List Signal) (next : Signal) :
    let s := (start ideal).run past
    let after := s.signal next
    (∀ d, d.Follows ideal (lastCap past) (lastListed past) ↔ d = s.derived) ∧
      ∀ base : Settings, (after.2 = true ↔ after.1.applyTo base ≠ s.applyTo base) ∧
        (s.applyTo base).lastN = base.lastN ∧ (after.1.applyTo base).lastN = base.lastN := by
  intro s after
  have hs : s = _ := run_start ideal past
  have hafter : after = _ := signal_signaled ideal (lastCap past) (lastListed past) next ▸
    congrArg (signal · next) hs
  refine ⟨?_, fun base => ⟨?_, rfl, rfl⟩⟩
  · intro d
    rw [hs]
    exact DerivedSelection.follows_iff
  · rw [Ne, applyTo_eq_iff, hafter, hs, decide_eq_true_iff]
    exact Iff.rfl

end SelectionSignaling

end Downlink

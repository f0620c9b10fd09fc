import Downlink.Proofs.Rollback

/-!
# Termination

Units may follow scripts that raise, lower or drop their targets whatever the budget.  Settling ends
all the same, and the length of the scripts says when.  The first pass braces the head of the list:
forcing it once more would change nothing.  From then on a pass either reads an entry of a script,
or it leaves every state as it was.  In the latter case the budget may still drift, since bitrates
go back in and are taken out again within the signed 64-bit range, but only once: what is left then
has room for each of these bitrates.

## Results

* `foldl_regive_idempotent` — giving back and taking out again is done with after one round.
* `Allocator.atRest_or_reads` — a pass reads an entry, or is at rest.
* `Allocator.allocate_terminates` — the number of passes that is always enough.
-/

set_option autoImplicit false

namespace Downlink

universe u

/-! ## Bitrates given back -/

/-- What is left of a budget when a bitrate goes back in and is taken out again. -/
def regive (remaining bitrate : Int64) : Int64 :=
  subClamped (addClamped remaining bitrate) bitrate

/-- The bitrate goes back into the budget without leaving the signed 64-bit range. -/
def HasRoom (remaining bitrate : Int64) : Prop :=
  -2 ^ 63 ≤ remaining.toInt + bitrate.toInt ∧ remaining.toInt + bitrate.toInt ≤ 2 ^ 63 - 1

/-- The second budget lies between zero and the first one. -/
def IsNearer (remaining nearer : Int64) : Prop :=
  min 0 remaining.toInt ≤ nearer.toInt ∧ nearer.toInt ≤ max 0 remaining.toInt

theorem toInt_regive (remaining bitrate : Int64) : (regive remaining bitrate).toInt =
    if 0 ≤ bitrate.toInt then min remaining.toInt (2 ^ 63 - 1 - bitrate.toInt)
    else max remaining.toInt (-2 ^ 63 - bitrate.toInt) := by
  have hremaining := remaining.toInt_lt
  have hremaining' := remaining.le_toInt
  have hbitrate := bitrate.toInt_lt
  have hbitrate' := bitrate.le_toInt
  rw [regive, toInt_subClamped, toInt_addClamped]
  split <;> omega

theorem hasRoom_regive (remaining bitrate : Int64) :
    HasRoom (regive remaining bitrate) bitrate := by
  have hremaining := remaining.toInt_lt
  have hremaining' := remaining.le_toInt
  have hbitrate := bitrate.toInt_lt
  have hbitrate' := bitrate.le_toInt
  unfold HasRoom
  rw [toInt_regive]
  split <;> omega

theorem isNearer_regive (remaining bitrate : Int64) :
    IsNearer remaining (regive remaining bitrate) := by
  have hbitrate := bitrate.toInt_lt
  have hbitrate' := bitrate.le_toInt
  unfold IsNearer
  rw [toInt_regive]
  split <;> omega

theorem regive_eq_self {remaining bitrate : Int64} (h : HasRoom remaining bitrate) :
    regive remaining bitrate = remaining := by
  obtain ⟨hlow, hhigh⟩ := h
  rw [← Int64.toInt_inj, toInt_regive]
  split <;> omega

theorem HasRoom.of_isNearer {remaining nearer bitrate : Int64} (h : HasRoom remaining bitrate)
    (hnearer : IsNearer remaining nearer) : HasRoom nearer bitrate := by
  have hbitrate := bitrate.toInt_lt
  have hbitrate' := bitrate.le_toInt
  unfold HasRoom IsNearer at *
  omega

theorem isNearer_foldl_regive (bitrates : List Int64) (remaining : Int64) :
    IsNearer remaining (bitrates.foldl regive remaining) := by
  induction bitrates generalizing remaining with
  | nil =>
    unfold IsNearer
    rw [List.foldl_nil]
    omega
  | cons bitrate bitrates ih =>
    have hhead := isNearer_regive remaining bitrate
    have htail := ih (regive remaining bitrate)
    rw [List.foldl_cons]
    unfold IsNearer at *
    omega

theorem hasRoom_foldl_regive {bitrates : List Int64} {bitrate : Int64} (h : bitrate ∈ bitrates)
    (remaining : Int64) : HasRoom (bitrates.foldl regive remaining) bitrate := by
  induction bitrates generalizing remaining with
  | nil => cases h
  | cons head bitrates ih =>
    rw [List.foldl_cons]
    rcases List.mem_cons.mp h with rfl | h
    · exact (hasRoom_regive remaining bitrate).of_isNearer (isNearer_foldl_regive bitrates _)
    · exact ih h _

theorem foldl_regive_eq_self {bitrates : List Int64} {remaining : Int64}
    (h : ∀ bitrate ∈ bitrates, HasRoom remaining bitrate) :
    bitrates.foldl regive remaining = remaining := by
  induction bitrates with
  | nil => rfl
  | cons bitrate bitrates ih =>
    rw [List.foldl_cons, regive_eq_self (h bitrate List.mem_cons_self)]
    exact ih fun other hother => h other (List.mem_cons_of_mem _ hother)

/-- **Giving back and taking out again is done with after one round.** -/
theorem foldl_regive_idempotent (bitrates : List Int64) (remaining : Int64) :
    bitrates.foldl regive (bitrates.foldl regive remaining) = bitrates.foldl regive remaining :=
  foldl_regive_eq_self fun _ h => hasRoom_foldl_regive h remaining

namespace Allocator

open LayerSelection

variable {υ : Type u} [LayerSelection υ] {script : υ → List (Option Nat)} {force : Bool}

/-! ## Units that follow scripts -/

/-- The units are not told apart by anything but their choices. -/
structure Alike (u v : υ) : Prop where
  isSuppressed : isSuppressed v = isSuppressed u
  preferred : preferred v = preferred u
  bitrate : bitrate v = bitrate u
  forceLowest : forceLowest v = forceLowest u

/-- Units choose the targets of a script, one after the other and whatever the budget, and then keep
every state.  Choosing changes nothing about a unit but what is left of its script. -/
structure FollowsScript (script : υ → List (Option Nat)) : Prop where
  choice : ∀ (u : υ) (s : UnitState) (budget : Int64),
    (improve u s budget).1 = (script u).head?.elim s fun target => { target }
  rest : ∀ (u : υ) (s : UnitState) (budget : Int64),
    script (improve u s budget).2 = (script u).tail
  alike : ∀ (u : υ) (s : UnitState) (budget : Int64), Alike u (improve u s budget).2

/-! ## Serving -/

/-- The slot with what its unit chooses. -/
def choose (remaining : Int64) (s : Slot υ) : Slot υ :=
  let choice := improve s.unit s.state (addClamped remaining s.bitrate)
  ⟨choice.2, choice.1⟩

/-- The slot, its unit forced where it has to be. -/
def brace (force : Bool) (s : Slot υ) : Slot υ := ⟨s.unit, (s.forced? force).getD s.state⟩

theorem serve_eq_brace (force : Bool) (remaining : Int64) (s : Slot υ) :
    s.serve force remaining =
      (brace force (choose remaining s),
        subClamped (addClamped remaining s.bitrate) (brace force (choose remaining s)).bitrate) :=
  rfl

/-- Forcing a unit once more changes nothing. -/
theorem brace_brace (force : Bool) (s : Slot υ) : brace force (brace force s) = brace force s := by
  cases hforced : s.forced? force with
  | none =>
    have hsame : brace force s = s := by rw [brace, hforced, Option.getD_none]
    rw [hsame, hsame]
  | some lowest =>
    have hlowest : forceLowest s.unit = some lowest := by
      unfold Slot.forced? at hforced
      split at hforced
      · exact hforced
      · cases hforced
    have hbraced : brace force s = ⟨s.unit, lowest⟩ := by rw [brace, hforced, Option.getD_some]
    rw [hbraced, brace, Slot.forced?, hlowest]
    split <;> rfl

theorem isWanting_of_alike {s t : Slot υ} (h : Alike s.unit t.unit) (hstate : t.state = s.state) :
    t.isWanting = s.isWanting := by
  rw [Slot.isWanting, Slot.isWanting, h.preferred, hstate]

/-- The script of the unit is read to its end, and forcing the unit changes nothing. -/
structure IsStill (script : υ → List (Option Nat)) (force : Bool) (s : Slot υ) : Prop where
  read : script s.unit = []
  braced : brace force s = s

/-- Serving such a unit changes nothing but the budget. -/
theorem serve_of_isStill (h : FollowsScript script) {s t : Slot υ} (hs : IsStill script force s)
    {remaining left : Int64} (hserve : s.serve force remaining = (t, left)) :
    t.state = s.state ∧ Alike s.unit t.unit ∧ IsStill script force t ∧
      left = regive remaining s.bitrate := by
  let unit := (choose remaining s).unit
  have halike : Alike s.unit unit := h.alike ..
  have hchoose : choose remaining s = ⟨unit, s.state⟩ := by
    have hkept : (choose remaining s).state = s.state := by
      rw [choose, h.choice, hs.read]
      rfl
    rw [← hkept]
  have hbrace : brace force ⟨unit, s.state⟩ = ⟨unit, s.state⟩ := by
    have hstate : (s.forced? force).getD s.state = s.state := congrArg Slot.state hs.braced
    rw [brace, Slot.forced?, halike.forceLowest]
    exact congrArg (Slot.mk unit) hstate
  rw [serve_eq_brace, hchoose, hbrace] at hserve
  obtain ⟨rfl, rfl⟩ := Prod.mk.inj hserve
  refine ⟨rfl, halike, ⟨?_, hbrace⟩, ?_⟩
  · rw [show script unit = (script s.unit).tail from h.rest .., hs.read]
    rfl
  · rw [regive, Slot.bitrate, Slot.bitrate, halike.bitrate]

/-! ## Passes at rest -/

/-- Every unit that a pass visits stays as it is. -/
def AtRest (script : υ → List (Option Nat)) (force : Bool) : List (Slot υ) → Prop
  | [] => True
  | s :: rest =>
    if isSuppressed s.unit then AtRest script false rest
    else IsStill script force s ∧ (s.isWanting = false → AtRest script false rest)

/-- The bitrates of the units that a pass at rest visits. -/
def visited : List (Slot υ) → List Int64
  | [] => []
  | s :: rest =>
    if isSuppressed s.unit then visited rest
    else s.bitrate :: if s.isWanting then [] else visited rest

section

variable {s : Slot υ} {rest : List (Slot υ)}

theorem atRest_cons_suppressed (h : isSuppressed s.unit = true) :
    AtRest script force (s :: rest) ↔ AtRest script false rest := by
  rw [AtRest, if_pos h]

theorem atRest_cons_served (h : isSuppressed s.unit = false) :
    AtRest script force (s :: rest) ↔
      IsStill script force s ∧ (s.isWanting = false → AtRest script false rest) := by
  rw [AtRest, if_neg (by simp [h])]

theorem visited_cons_suppressed (h : isSuppressed s.unit = true) :
    visited (s :: rest) = visited rest := by
  rw [visited, if_pos h]

theorem visited_cons_served (h : isSuppressed s.unit = false) :
    visited (s :: rest) = s.bitrate :: if s.isWanting then [] else visited rest := by
  rw [visited, if_neg (by simp [h])]

omit [LayerSelection υ] in
theorem forwardedCount_cons (s : Slot υ) (rest : List (Slot υ)) :
    forwardedCount (s :: rest) = forwardedCount rest + if s.state.isForwarded then 1 else 0 :=
  List.countP_cons

end

/-- What a pass at rest does: the same units send the same, and the pass after it is at rest too. -/
structure Rests (script : υ → List (Option Nat)) (force : Bool) (remaining : Int64)
    (slots : List (Slot υ)) : Prop where
  atRest : AtRest script force (pass force remaining slots).1
  visited_eq : visited (pass force remaining slots).1 = visited slots
  forwardedCount_eq : forwardedCount (pass force remaining slots).1 = forwardedCount slots
  remaining_eq : (pass force remaining slots).2 = (visited slots).foldl regive remaining

/-- **A pass at rest gives back what units hold and takes it out again**, and does nothing else. -/
theorem rests_of_atRest (h : FollowsScript script) {slots : List (Slot υ)}
    (hrest : AtRest script force slots) (remaining : Int64) :
    Rests script force remaining slots := by
  induction slots generalizing force remaining with
  | nil => exact ⟨trivial, rfl, rfl, rfl⟩
  | cons s rest ih =>
    cases hsuppressed : isSuppressed s.unit with
    | true =>
      have htail := ih ((atRest_cons_suppressed hsuppressed).mp hrest) remaining
      constructor <;> rw [pass_cons_suppressed hsuppressed]
      · exact (atRest_cons_suppressed hsuppressed).mpr htail.atRest
      · rw [visited_cons_suppressed hsuppressed, visited_cons_suppressed hsuppressed,
          htail.visited_eq]
      · rw [forwardedCount_cons, forwardedCount_cons, htail.forwardedCount_eq]
      · rw [visited_cons_suppressed hsuppressed]
        exact htail.remaining_eq
    | false =>
      obtain ⟨hstill, hbehind⟩ := (atRest_cons_served hsuppressed).mp hrest
      rcases hserve : s.serve force remaining with ⟨t, left⟩
      obtain ⟨hstate, halike, hstill', rfl⟩ := serve_of_isStill h hstill hserve
      have hserved : isSuppressed t.unit = false := halike.isSuppressed.trans hsuppressed
      have hbitrate : t.bitrate = s.bitrate := by
        rw [Slot.bitrate, Slot.bitrate, halike.bitrate, hstate]
      have hwanting : t.isWanting = s.isWanting := isWanting_of_alike halike hstate
      cases hstop : s.isWanting with
      | true =>
        have hstop' : t.isWanting = true := hwanting.trans hstop
        constructor <;> rw [pass_cons_served hsuppressed hserve, if_pos hstop']
        · refine (atRest_cons_served hserved).mpr ⟨hstill', fun hgo => ?_⟩
          rw [hstop'] at hgo
          cases hgo
        · rw [visited_cons_served hsuppressed, visited_cons_served hserved, hbitrate, hstop, hstop']
        · rw [forwardedCount_cons, forwardedCount_cons, hstate]
        · rw [visited_cons_served hsuppressed, hstop]
          rfl
      | false =>
        have hgo : t.isWanting = false := hwanting.trans hstop
        have htail := ih (hbehind hstop) (regive remaining s.bitrate)
        constructor <;> rw [pass_cons_served hsuppressed hserve, if_neg (by simp [hgo])]
        · exact (atRest_cons_served hserved).mpr ⟨hstill', fun _ => htail.atRest⟩
        · rw [visited_cons_served hsuppressed, visited_cons_served hserved, hbitrate, hstop, hgo,
            htail.visited_eq]
        · rw [forwardedCount_cons, forwardedCount_cons, hstate, htail.forwardedCount_eq]
        · rw [visited_cons_served hsuppressed, hstop, List.foldl_cons]
          exact htail.remaining_eq

/-! ## Passes that read -/

/-- The entries of scripts that are still to be read. -/
def unread (script : υ → List (Option Nat)) (slots : List (Slot υ)) : Nat :=
  (slots.map fun s => (script s.unit).length).sum

omit [LayerSelection υ] in
@[simp] theorem unread_cons (s : Slot υ) (rest : List (Slot υ)) :
    unread script (s :: rest) = (script s.unit).length + unread script rest := by
  simp [unread]

/-- Forcing the head of the list once more changes nothing. -/
def HeadIsBraced (force : Bool) : List (Slot υ) → Prop
  | [] => True
  | s :: _ => isSuppressed s.unit = false → brace force s = s

theorem headIsBraced_of_not_forced (slots : List (Slot υ)) : HeadIsBraced false slots := by
  cases slots with
  | nil => trivial
  | cons s rest => exact fun _ => rfl

/-- Every pass braces the head. -/
theorem headIsBraced_pass (remaining : Int64) (slots : List (Slot υ)) :
    HeadIsBraced force (pass force remaining slots).1 := by
  cases slots with
  | nil => trivial
  | cons s rest =>
    cases hsuppressed : isSuppressed s.unit with
    | true =>
      rw [pass_cons_suppressed hsuppressed]
      intro hserved
      rw [hsuppressed] at hserved
      cases hserved
    | false =>
      rcases hserve : s.serve force remaining with ⟨t, left⟩
      have ht : t = brace force (choose remaining s) := by
        rw [serve_eq_brace] at hserve
        exact (Prod.mk.inj hserve).1.symm
      have hbraced : brace force t = t := by rw [ht, brace_brace]
      rw [pass_cons_served hsuppressed hserve]
      split <;> exact fun _ => hbraced

/-- Serving reads one entry of a script, if there is any. -/
theorem length_script_serve (h : FollowsScript script) {s t : Slot υ} {remaining left : Int64}
    (hserve : s.serve force remaining = (t, left)) :
    (script t.unit).length = (script s.unit).length - 1 := by
  rw [← List.length_tail, ← h.rest s.unit s.state (addClamped remaining s.bitrate),
    ← congrArg (·.1.unit) hserve]
  rfl

theorem unread_pass_le (h : FollowsScript script) (force : Bool) (remaining : Int64)
    (slots : List (Slot υ)) :
    unread script (pass force remaining slots).1 ≤ unread script slots := by
  induction slots generalizing force remaining with
  | nil => exact Nat.le_refl _
  | cons s rest ih =>
    cases hsuppressed : isSuppressed s.unit with
    | true =>
      have htail := ih false remaining
      rw [pass_cons_suppressed hsuppressed]
      simp only [unread_cons]
      omega
    | false =>
      rcases hserve : s.serve force remaining with ⟨t, left⟩
      have hhead := length_script_serve h hserve
      have htail := ih false left
      rw [pass_cons_served hsuppressed hserve]
      split <;> simp only [unread_cons] <;> omega

/-- **A pass reads an entry of a script, or is at rest.** -/
theorem atRest_or_reads (h : FollowsScript script) {slots : List (Slot υ)}
    (hbraced : HeadIsBraced force slots) (remaining : Int64) :
    AtRest script force slots ∨
      unread script (pass force remaining slots).1 < unread script slots := by
  induction slots generalizing force remaining with
  | nil => exact .inl trivial
  | cons s rest ih =>
    cases hsuppressed : isSuppressed s.unit with
    | true =>
      rw [atRest_cons_suppressed hsuppressed, pass_cons_suppressed hsuppressed]
      rcases ih (headIsBraced_of_not_forced rest) remaining with hrest | hreads
      · exact .inl hrest
      · right
        simp only [unread_cons]
        omega
    | false =>
      rcases hserve : s.serve force remaining with ⟨t, left⟩
      have hhead := length_script_serve h hserve
      have htail := unread_pass_le h false left rest
      rw [atRest_cons_served hsuppressed, pass_cons_served hsuppressed hserve]
      by_cases hread : script s.unit = []
      · have hstill : IsStill script force s := ⟨hread, hbraced hsuppressed⟩
        obtain ⟨hstate, halike, _, _⟩ := serve_of_isStill h hstill hserve
        have hwanting : t.isWanting = s.isWanting := isWanting_of_alike halike hstate
        cases hstop : s.isWanting with
        | true => exact .inl ⟨hstill, fun hgo => nomatch hgo⟩
        | false =>
          rw [if_neg (by simp [hwanting, hstop])]
          simp only [unread_cons]
          rcases ih (headIsBraced_of_not_forced rest) left with hrest | hreads
          · exact .inl ⟨hstill, fun _ => hrest⟩
          · right
            omega
      · right
        have hpos : 0 < (script s.unit).length := List.length_pos_iff.mpr hread
        split <;> simp only [unread_cons] <;> omega

/-! ## Settling -/

section

variable {limit : Nat} {p : Progress υ} {o : Outcome υ}

/-- Settling ends within so many passes. -/
def SettlesWithin (force : Bool) (limit : Nat) (p : Progress υ) : Prop :=
  ∃ o, settle force limit p = some o

theorem SettlesWithin.mono {limit' : Nat} (h : SettlesWithin force limit p) (hle : limit ≤ limit') :
    SettlesWithin force limit' p := by
  obtain ⟨o, ho⟩ := h
  exact ⟨o, settle_mono ho hle⟩

/-- A pass that is discarded ends settling, and one that is kept leads to where settling goes on. -/
theorem SettlesWithin.succ (h : SettlesWithin force limit (p.advance force)) :
    SettlesWithin force (limit + 1) p := by
  obtain ⟨o, ho⟩ := h
  cases hp : p.isUnsettled with
  | false => exact ⟨p.outcome, settle_of_settled hp⟩
  | true =>
    unfold SettlesWithin
    rw [settle_succ hp]
    split
    · exact ⟨_, rfl⟩
    · exact ⟨o, ho⟩

theorem passes_le_of_settle (h : settle force limit p = some o) : o.passes ≤ p.passes + limit := by
  induction limit using Nat.strong_induction_on generalizing p with
  | _ limit ih =>
    rcases settle_cases h with ⟨_, rfl⟩ | ⟨_, rest, rfl, ⟨_, rfl⟩ | ⟨_, hend⟩⟩
    · exact Nat.le_add_right ..
    · simp only [Progress.rollBack]
      omega
    · have hrest := ih rest (Nat.lt_succ_self rest) hend
      simp only [Progress.advance] at hrest
      omega

end

/-- At rest the budget drifts in the first pass only. -/
theorem settlesWithin_of_atRest (h : FollowsScript script) {p : Progress υ}
    (hrest : AtRest script force p.slots) : SettlesWithin force 2 p := by
  have hfirst := rests_of_atRest h hrest p.remaining
  have hsecond := rests_of_atRest h hfirst.atRest (p.advance force).remaining
  have hsettled : ((p.advance force).advance force).isUnsettled = false := by
    have hsame : ((p.advance force).advance force).remaining = (p.advance force).remaining := by
      calc ((p.advance force).advance force).remaining
          = (visited (p.advance force).slots).foldl regive (p.advance force).remaining :=
            hsecond.remaining_eq
        _ = (visited p.slots).foldl regive ((visited p.slots).foldl regive p.remaining) := by
            rw [Progress.advance, hfirst.visited_eq, hfirst.remaining_eq]
        _ = (visited p.slots).foldl regive p.remaining := foldl_regive_idempotent ..
        _ = (p.advance force).remaining := hfirst.remaining_eq.symm
    simp only [Progress.isUnsettled, bne_eq_false_iff_eq]
    exact congrArg some hsame.symm
  have hend : SettlesWithin force 0 ((p.advance force).advance force) :=
    ⟨_, settle_of_settled hsettled⟩
  exact hend.succ.succ

/-- From a braced head on, every pass that is not at rest reads an entry. -/
theorem settlesWithin_of_braced (h : FollowsScript script) {p : Progress υ}
    (hbraced : HeadIsBraced force p.slots) :
    SettlesWithin force (unread script p.slots + 2) p := by
  induction hentries : unread script p.slots using Nat.strong_induction_on generalizing p with
  | _ entries ih =>
    rcases atRest_or_reads h hbraced p.remaining with hrest | hreads
    · exact (settlesWithin_of_atRest h hrest).mono (Nat.le_add_left ..)
    · have hfewer : unread script (p.advance force).slots < entries := hentries ▸ hreads
      have hnext := ih _ hfewer (headIsBraced_pass p.remaining p.slots) rfl
      exact hnext.succ.mono (by omega)

/-- The first pass braces the head, so one pass more is enough from any start. -/
theorem settlesWithin (h : FollowsScript script) (force : Bool) (p : Progress υ) :
    SettlesWithin force (unread script p.slots + 3) p := by
  have hread := unread_pass_le h force p.remaining p.slots
  have hnext : SettlesWithin force (unread script (p.advance force).slots + 2) (p.advance force) :=
    settlesWithin_of_braced h (headIsBraced_pass p.remaining p.slots)
  refine hnext.succ.mono ?_
  show unread script (pass force p.remaining p.slots).1 + 2 + 1 ≤ _
  omega

/-! ## Allocations -/

/-- **Allocation ends.**  Whatever targets the scripts hold, and whatever units prefer, take, or can
be forced to: there is an outcome, and it is arrived at within three passes more than the scripts
have entries together.  Giving up later makes no difference to it, and where so many passes are
allowed for it is what allocating comes to. -/
theorem allocate_terminates (h : FollowsScript script) (force : Bool) (budget : Int64)
    (units : List υ) :
    let entries := (units.map fun u => (script u).length).sum
    ∃ o, o.passes ≤ entries + 3 ∧
      (∀ limit, entries + 3 ≤ limit → allocateWithin limit force budget units = some o) ∧
      ∀ [PassLimit υ], entries + 3 ≤ passLimit units → allocate force budget units = o := by
  intro entries
  let start := Progress.start budget units
  have hentries : unread script start.slots = entries := by
    simp [start, Progress.start, unread, entries, Function.comp_def]
  have hends : ∃ o, o.passes ≤ entries + 3 ∧
      allocateWithin (entries + 3) force budget units = some o := by
    unfold allocateWithin
    split
    · exact ⟨start.outcome, Nat.zero_le _, rfl⟩
    · obtain ⟨o, ho⟩ := settlesWithin h force start
      rw [hentries] at ho
      have hpasses := passes_le_of_settle ho
      have hstart : start.passes = 0 := rfl
      exact ⟨o, by omega, ho⟩
  obtain ⟨o, hpasses, ho⟩ := hends
  exact ⟨o, hpasses, fun limit => allocateWithin_mono ho, allocate_eq_of_allocateWithin ho⟩

/-! ## Scripted units -/

theorem followsScript_scripted : FollowsScript ScriptedUnit.script where
  choice u s budget := by
    show (u.choose s budget).1 = _
    unfold ScriptedUnit.choose
    split <;> simp_all
  rest u s budget := by
    show (u.choose s budget).2.script = _
    unfold ScriptedUnit.choose
    split <;> simp_all
  alike u s budget := by
    have hsame : (u.choose s budget).2.suppressed = u.suppressed ∧
        (u.choose s budget).2.preferred = u.preferred ∧
        (u.choose s budget).2.bitrates = u.bitrates ∧ (u.choose s budget).2.forced = u.forced := by
      unfold ScriptedUnit.choose
      split <;> exact ⟨rfl, rfl, rfl, rfl⟩
    obtain ⟨hsuppressed, hpreferred, hbitrates, hforced⟩ := hsame
    refine ⟨hsuppressed, hpreferred, ?_, ?_⟩
    · funext t
      show ((t.target.bind ((u.choose s budget).2.bitrates[·]?)).getD 0 : Int64) = _
      rw [hbitrates]
      rfl
    · show (u.choose s budget).2.forced.map _ = _
      rw [hforced]
      rfl

/-- Scripted units are allowed as many passes as they may take. -/
theorem passLimit_scripted (units : List ScriptedUnit) :
    passLimit units = (units.map fun u => u.script.length).sum + 3 := by
  induction units with
  | nil => rfl
  | cons u units ih =>
    have hcons : passLimit (u :: units) = u.script.length + passLimit units := rfl
    rw [hcons, ih, List.map_cons, List.sum_cons, Nat.add_assoc]

/-- The first pass stops at the first unit.  In the second one the unit drops its target, is forced,
and opens the way to the other one, whose negative bitrate is more than the budget can hold.  The
third pass changes no state, and the budget drifts all the same; the fourth one finds it settled. -/
theorem allocate_terminates_after_drift :
    let units : List ScriptedUnit :=
      [⟨false, some 1, [10, 20], [some 0, none], some 1, []⟩,
        ⟨false, none, [-100], [some 0], none, []⟩]
    let o := allocate true Int64.maxValue units
    FollowsScript ScriptedUnit.script ∧ (units.map (·.script.length)).sum = 3 ∧
      passLimit units = 6 ∧ o.passes ≤ 6 ∧
      (∀ limit, 6 ≤ limit → allocateWithin limit true Int64.maxValue units = some o) ∧
      o.passes = 4 ∧ o.states = [⟨some 1, true⟩, ⟨some 0, false⟩] ∧
      o.remaining = Int64.maxValue - 20 := by
  intro units o
  have hlimit : passLimit units = 6 := passLimit_scripted units
  obtain ⟨outcome, hpasses, hwithin, hallocate⟩ :=
    allocate_terminates followsScript_scripted true Int64.maxValue units
  have ho : o = outcome := hallocate hlimit.ge
  rw [← ho] at hpasses hwithin
  exact ⟨followsScript_scripted, rfl, hlimit, hpasses, hwithin, by decide +kernel,
    by decide +kernel, by decide +kernel⟩

end Allocator

end Downlink

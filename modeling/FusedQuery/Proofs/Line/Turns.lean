/-
  FusedQuery/Proofs/Line/Turns.lean
  =================================
  **Who makes what in a run.**

  Identities are handed out in order.  When an element comes to a place of the line it is the
  turn of that place, and what is made in this turn has the identities from the supply before it
  up to the supply after it.  `Line.turns` lists the turns of a run as they follow each other,
  the terminal's among them.

  A turn begins where an earlier one has ended, or later (`inOrder_turns`).  So no two turns
  make the same, and no turn makes what existed before the run.  The turns of a place are its
  arrivals (`turns_at`), and each is one step of its stage (`turn_is_step`).
-/
import FusedQuery.Proofs.Line.Arrivals
import FusedQuery.Proofs.Terminal.Acts

namespace FusedQuery

variable {σ ρ : Type}

/-! ### The supply -/

namespace World

def SupplyLe (v w : World σ) : Prop := v.supply ≤ w.supply

end World

theorem Act.sees_supplyLe {α : Type} (act : Act σ α) : act.Sees Eq World.SupplyLe where
  result := fun h => h ▸ rfl
  seen := fun h => h ▸ rfl
  kept := fun h => Nat.le_trans h (act.supply_le _)

theorem Stage.supply_step_le (stage : Stage σ) (control : Control) (item : Value) (w : World σ) :
    w.supply ≤ (stage.step control item w).world.supply :=
  Stage.step_keeps (stage.acts_of_forall Act.sees_supplyLe) control item (Nat.le_refl w.supply)

theorem Terminal.supply_accept_le (terminal : Terminal σ ρ) (control : Control) (item : Value)
    (w : World σ) : w.supply ≤ (terminal.accept control item w).world.supply :=
  Terminal.accept_keeps (terminal.acts_of_forall Act.sees_supplyLe) control item
    (Nat.le_refl w.supply)

/-! ### Turns -/

/-- A place of a line at work on one element: the supply when the element came and when the
    place was through with it. -/
structure Turn where
  place : Nat
  before : Ref
  after : Ref

namespace Turn

/-- The identity may have been given out in the turn. -/
def Makes (turn : Turn) (ref : Ref) : Prop := turn.before ≤ ref ∧ ref < turn.after

/-- Turns that follow each other while the supply goes from `first` to `last`. -/
structure InOrder (first last : Ref) (turns : List Turn) : Prop where
  le : first ≤ last
  apart : turns.Pairwise fun earlier later => earlier.after ≤ later.before
  bounds : ∀ turn ∈ turns, first ≤ turn.before ∧ turn.before ≤ turn.after ∧ turn.after ≤ last

namespace InOrder

variable {first mid last : Ref} {turn : Turn} {front back turns : List Turn}

theorem nil (first : Ref) : InOrder first first [] :=
  ⟨Nat.le_refl first, List.Pairwise.nil, fun _ h => nomatch h⟩

theorem append (hfront : InOrder first mid front) (hback : InOrder mid last back) :
    InOrder first last (front ++ back) := by
  constructor
  case le => exact Nat.le_trans hfront.le hback.le
  case apart =>
    refine List.pairwise_append.mpr ⟨hfront.apart, hback.apart, ?_⟩
    intro earlier hearlier later hlater
    exact Nat.le_trans (hfront.bounds earlier hearlier).2.2 (hback.bounds later hlater).1
  case bounds =>
    intro turn hmem
    rcases List.mem_append.mp hmem with hmem | hmem
    · obtain ⟨hfirst, hturn, hmid⟩ := hfront.bounds turn hmem
      exact ⟨hfirst, hturn, Nat.le_trans hmid hback.le⟩
    · obtain ⟨hmid, hturn, hlast⟩ := hback.bounds turn hmem
      exact ⟨Nat.le_trans hfront.le hmid, hturn, hlast⟩

theorem singleton (place : Nat) (h : first ≤ last) :
    InOrder first last [⟨place, first, last⟩] := by
  refine ⟨h, List.pairwise_singleton _ _, ?_⟩
  intro turn hmem
  obtain rfl := List.mem_singleton.mp hmem
  exact ⟨Nat.le_refl _, h, Nat.le_refl _⟩

/-- No two turns make the same. -/
theorem not_makes (h : InOrder first last turns) {i j : Nat} (hij : i ≠ j) {s t : Turn}
    (hs : turns[i]? = some s) (ht : turns[j]? = some t) {ref : Ref} (href : s.Makes ref) :
    ¬ t.Makes ref := by
  obtain ⟨hi, rfl⟩ := List.getElem?_eq_some_iff.mp hs
  obtain ⟨hj, rfl⟩ := List.getElem?_eq_some_iff.mp ht
  have hapart := List.pairwise_iff_getElem.mp h.apart
  obtain ⟨hbefore, hafter⟩ := href
  rintro ⟨hbefore', hafter'⟩
  rcases Nat.lt_or_gt_of_ne hij with hlt | hlt
  · have hle : turns[i].after ≤ turns[j].before := hapart i j hi hj hlt
    exact Nat.not_le_of_lt hafter (Nat.le_trans hle hbefore')
  · have hle : turns[j].after ≤ turns[i].before := hapart j i hj hi hlt
    exact Nat.not_le_of_lt hafter' (Nat.le_trans hle hbefore)

end InOrder

end Turn

namespace Line

/-- The turns of one element on its way, the first at the place given. -/
def sendTurns (control : Control) (terminal : Terminal σ ρ) (item : Value) (world : World σ)
    (place : Nat) : List (Stage σ) → List Turn
  | [] => [⟨place, world.supply, (terminal.accept control item world).world.supply⟩]
  | stage :: rest =>
    let step := stage.step control item world
    ⟨place, world.supply, step.world.supply⟩ ::
      match step.flow with
      | .error _ => []
      | .ok .drop => []
      | .ok (.forward next) => sendTurns step.control terminal next step.world (place + 1) rest

def dispatchTurns (line : Line σ ρ) (item : Value) : List Turn :=
  sendTurns line.control line.terminal item line.world 0 line.stages

/-- The turns of elements that are sent one after the other. -/
def turns (line : Line σ ρ) : List Value → List Turn
  | [] => []
  | item :: rest => line.dispatchTurns item ++ (line.dispatch item).line.turns rest

/-! ### Their order -/

theorem inOrder_sendTurns (control : Control) (terminal : Terminal σ ρ) (item : Value)
    (w : World σ) (place : Nat) (stages : List (Stage σ)) :
    Turn.InOrder w.supply (send control terminal item w stages).line.world.supply
      (sendTurns control terminal item w place stages) := by
  induction stages generalizing control item w place with
  | nil => exact Turn.InOrder.singleton place (terminal.supply_accept_le control item w)
  | cons stage rest ih =>
    have hfirst : Turn.InOrder w.supply (stage.step control item w).world.supply
        [⟨place, w.supply, (stage.step control item w).world.supply⟩] :=
      Turn.InOrder.singleton place (stage.supply_step_le control item w)
    simp only [send, sendTurns]
    rcases (stage.step control item w).flow with fault | flow
    · exact hfirst
    · cases flow with
      | drop => exact hfirst
      | forward next => exact hfirst.append (ih _ next _ (place + 1))

/-- **The turns of a run follow each other.** -/
theorem inOrder_turns (line : Line σ ρ) (items : List Value) :
    Turn.InOrder line.world.supply (line.after items).world.supply (line.turns items) := by
  induction items generalizing line with
  | nil => exact Turn.InOrder.nil _
  | cons item rest ih =>
    have hfirst := inOrder_sendTurns line.control line.terminal item line.world 0 line.stages
    exact hfirst.append (ih (line.dispatch item).line)

/-! ### The turns of a place -/

section Places

variable {control : Control} {terminal : Terminal σ ρ} {item : Value} {w : World σ} {first : Nat}
  {stage : Stage σ} {rest stages : List (Stage σ)} {turn : Turn}

theorem mem_sendTurns_cons (h : turn ∈ sendTurns control terminal item w first (stage :: rest)) :
    turn = ⟨first, w.supply, (stage.step control item w).world.supply⟩ ∨
      ∃ next, turn ∈ sendTurns (stage.step control item w).control terminal next
        (stage.step control item w).world (first + 1) rest := by
  rw [sendTurns] at h
  rcases List.mem_cons.mp h with hfirst | hrest
  · exact Or.inl hfirst
  · right
    rcases hflow : (stage.step control item w).flow with fault | flow
    · simp only [hflow, List.not_mem_nil] at hrest
    · cases flow with
      | drop => simp only [hflow, List.not_mem_nil] at hrest
      | forward next =>
        simp only [hflow] at hrest
        exact ⟨next, hrest⟩

theorem first_le_place (h : turn ∈ sendTurns control terminal item w first stages) :
    first ≤ turn.place := by
  induction stages generalizing control item w first with
  | nil =>
    obtain rfl := List.mem_singleton.mp h
    exact Nat.le_refl _
  | cons stage rest ih =>
    rcases mem_sendTurns_cons h with rfl | ⟨next, hrest⟩
    · exact Nat.le_refl _
    · exact Nat.le_of_succ_le (ih hrest)

/-- A turn at the place of a stage is a step of this stage. -/
theorem sendTurn_is_step (h : turn ∈ sendTurns control terminal item w first stages)
    {place : Nat} (hplace : turn.place = first + place) (hstage : stages[place]? = some stage) :
    ∃ control item w, turn.before = w.supply ∧
      turn.after = (stage.step control item w).world.supply := by
  induction stages generalizing control item w first place with
  | nil => cases hstage
  | cons head rest ih =>
    rcases mem_sendTurns_cons h with rfl | ⟨next, hrest⟩
    · have hzero : place = 0 := by
        simp only at hplace
        omega
      subst hzero
      obtain rfl := Option.some.inj hstage
      exact ⟨control, item, w, rfl, rfl⟩
    · have hle := first_le_place hrest
      obtain ⟨behind, rfl⟩ : ∃ behind, place = behind + 1 := ⟨place - 1, by omega⟩
      exact ih hrest (by omega) hstage

/-- By induction on the stages before the place. -/
theorem sendTurns_at {place : Nat} (h : place ≤ stages.length) :
    ((sendTurns control terminal item w first stages).filter
        fun turn => turn.place = first + place).map Turn.before =
      (transit control item w (stages.take place)).arrival?.toList.map
        fun arrival => arrival.world.supply := by
  induction stages generalizing control item w first place with
  | nil =>
    obtain rfl := Nat.le_zero.mp h
    simp [sendTurns, transit, Transit.arrival?]
  | cons stage rest ih =>
    cases place with
    | zero =>
      have hlater : ∀ next, (sendTurns (stage.step control item w).control terminal next
          (stage.step control item w).world (first + 1) rest).filter
            (fun turn => turn.place = first + 0) = [] := by
        intro next
        rw [List.filter_eq_nil_iff]
        intro turn hmem
        have hle := first_le_place hmem
        simp only [decide_eq_true_eq]
        omega
      rw [sendTurns, List.filter_cons_of_pos (by simp)]
      rcases (stage.step control item w).flow with fault | flow
      · rfl
      · cases flow with
        | drop => rfl
        | forward next =>
          simp only [hlater next]
          rfl
    | succ place =>
      have hplace : place ≤ rest.length := Nat.le_of_succ_le_succ h
      have hnot : ¬ first = first + (place + 1) := by omega
      rw [sendTurns, List.filter_cons_of_neg (by simp)]
      simp only [List.take_succ_cons, transit]
      rcases (stage.step control item w).flow with fault | flow
      · rfl
      · cases flow with
        | drop => rfl
        | forward next =>
          rw [← Nat.add_assoc, Nat.add_right_comm]
          exact ih hplace

end Places

/-- **The turns of a place are its arrivals.** -/
theorem turns_at {line : Line σ ρ} {place : Nat} (h : place ≤ line.stages.length)
    (items : List Value) :
    ((line.turns items).filter fun turn => turn.place = place).map Turn.before =
      (line.arrivals place items).map fun arrival => arrival.world.supply := by
  induction items generalizing line with
  | nil => rfl
  | cons item rest ih =>
    have hfirst : ((line.dispatchTurns item).filter fun turn => turn.place = 0 + place).map
        Turn.before = (line.arrival? item place).toList.map fun arrival => arrival.world.supply :=
      sendTurns_at h
    have hrest := ih (Nat.le_trans h (Nat.le_of_eq (length_dispatch line item).symm))
    rw [Nat.zero_add] at hfirst
    rw [turns, arrivals, List.filter_append, List.map_append, List.map_append, hrest]
    exact congrArg (· ++ _) hfirst

/-- A turn at the place of a stage is a step of this stage, after some arrivals. -/
theorem turn_is_step {line : Line σ ρ} {items : List Value} {turn : Turn}
    (h : turn ∈ line.turns items) {stage : Stage σ}
    (hstage : line.stages[turn.place]? = some stage) :
    ∃ arrivals control item w, turn.before = w.supply ∧
      turn.after = ((stage.after arrivals).step control item w).world.supply := by
  induction items generalizing line stage with
  | nil => cases h
  | cons item rest ih =>
    rcases List.mem_append.mp h with hfirst | hrest
    · obtain ⟨control, item, w, hstep⟩ := sendTurn_is_step hfirst (Nat.zero_add _).symm hstage
      exact ⟨[], control, item, w, hstep⟩
    · have hnext := getElem?_transit hstage line.control item line.world
      rw [← stages_dispatch] at hnext
      obtain ⟨later, control, item, w, hstep⟩ := ih hrest hnext
      rw [← Stage.after_append] at hstep
      exact ⟨_, control, item, w, hstep⟩

end Line

end FusedQuery

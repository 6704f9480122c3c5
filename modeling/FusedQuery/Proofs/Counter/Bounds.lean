/-
  FusedQuery/Proofs/Counter/Bounds.lean
  =====================================
  **No counter of a run wraps around.**

  Stages and terminals count what arrives at them, and the skips together what they drop, in
  numbers of 64 bits.  An element arrives at each place at most once and is dropped by at most
  one skip.  So a run that has sent `k` elements shows `k` in none of its counters more
  (`Line.Within`), whatever the stages had counted before it, for it starts with a reset.

  A source is shorter than the largest of these numbers.  Then one more element puts a counter
  up by one or leaves it alone, and no counter goes back to zero (`Counter.Advances`); the
  position that a search has found is the same number with a sign; and a slice without an end
  does not come to the bound that it has instead.
-/
import FusedQuery.Proofs.History.Stats
import FusedQuery.Proofs.Scan.Agree
import FusedQuery.Proofs.Skip.Drops
import FusedQuery.Proofs.Trace.Gate
import Mathlib.Algebra.Group.Nat.Defs
import Mathlib.Data.List.Forall2

namespace FusedQuery

variable {σ ρ : Type}

namespace Counter

/-- The counter is left alone, or put up by one without wrapping around. -/
def Advances (before after : UInt64) : Prop :=
  after.toNat = before.toNat ∨ after.toNat = before.toNat + 1

theorem Advances.refl (n : UInt64) : Advances n n := Or.inl rfl

theorem toNat_succ_le (n : UInt64) : (n + 1).toNat ≤ n.toNat + 1 := by
  rw [UInt64.toNat_add]
  exact Nat.mod_le _ _

theorem toNat_succ {n : UInt64} (h : n.toNat + 1 < 2 ^ 64) : (n + 1).toNat = n.toNat + 1 := by
  rw [UInt64.toNat_add]
  exact Nat.mod_eq_of_lt h

theorem succ_le_succ {n : UInt64} {k : Nat} (h : n.toNat ≤ k) : (n + 1).toNat ≤ k + 1 :=
  Nat.le_trans (toNat_succ_le n) (Nat.succ_le_succ h)

theorem Advances.succ {n : UInt64} (h : n.toNat + 1 < 2 ^ 64) : Advances n (n + 1) :=
  Or.inr (toNat_succ h)

end Counter

open Counter

/-! ### Stages -/

namespace Stage

/-- What the stage has counted, if it counts. -/
def counter : Stage σ → UInt64
  | .zip _ pos => pos
  | .slice _ _ pos => pos
  | .take _ taken => taken
  | .get _ pos => pos
  | _ => 0

/-- The stage has counted no further than `k`, and no further than its own limit. -/
def Within (k : Nat) : Stage σ → Prop
  | .take limit taken => taken.toNat ≤ min limit.toNat k
  | stage => stage.counter.toNat ≤ k

variable {stage : Stage σ} {k l : Nat}

theorem Within.counter_le (h : stage.Within k) : stage.counter.toNat ≤ k := by
  cases stage with
  | take limit taken => exact (Nat.le_min.mp h).2
  | _ => exact h

theorem Within.mono (h : stage.Within k) (hkl : k ≤ l) : stage.Within l := by
  cases stage with
  | take limit taken =>
    obtain ⟨hlimit, hk⟩ := Nat.le_min.mp h
    exact Nat.le_min.mpr ⟨hlimit, Nat.le_trans hk hkl⟩
  | _ => exact Nat.le_trans h hkl

theorem within_reset (stage : Stage σ) : stage.reset.Within 0 := by
  cases stage <;> exact Nat.zero_le _

/-- From a stage that has counted no further than `k`, one arrival on. -/
structure Counts (k : Nat) (before after : Stage σ) : Prop where
  within : after.Within (k + 1)
  advances : Advances before.counter after.counter

theorem Counts.refl (h : stage.Within k) : Counts k stage stage :=
  ⟨h.mono (Nat.le_succ k), Advances.refl _⟩

/-- One arrival counts for one at most. -/
theorem Within.meet (h : stage.Within k) (hk : k + 1 < 2 ^ 64) (arrival : Arrival σ) :
    Counts k stage (stage.meet arrival) := by
  have hroom : stage.counter.toNat + 1 < 2 ^ 64 := by
    have hle := h.counter_le
    omega
  unfold Stage.meet
  cases stage with
  | zip other pos => exact ⟨succ_le_succ h, Advances.succ hroom⟩
  | slice start bound pos =>
    simp only [step]
    split <;> exact ⟨succ_le_succ h, Advances.succ hroom⟩
  | get index pos =>
    simp only [step]
    split <;> exact ⟨succ_le_succ h, Advances.succ hroom⟩
  | take limit taken =>
    simp only [step]
    split
    · exact Counts.refl h
    · next hmore =>
      have hlt := UInt64.lt_iff_toNat_lt.mp (UInt64.not_le.mp hmore)
      have hnext := toNat_succ hroom
      refine ⟨?_, Or.inr hnext⟩
      obtain ⟨_, htaken⟩ := Nat.le_min.mp h
      simp only [Within, counter] at hnext ⊢
      omega
  | skip count =>
    simp only [step]
    split <;> exact Counts.refl h
  | first test? =>
    cases test? with
    | none => exact Counts.refl h
    | some test =>
      simp only [step]
      split <;> exact Counts.refl h
  | uniq eq? seen =>
    simp only [step]
    split
    · split <;> exact ⟨Nat.zero_le _, Advances.refl _⟩
    · split <;> exact ⟨Nat.zero_le _, Advances.refl _⟩
  | _ => exact Counts.refl h

/-- A slice that has not come near the bound of an open one asks for no stop. -/
theorem control_step_openSlice {start pos : UInt64}
    (h : pos.toNat + 1 < Query.openBound.toNat) (control : Control) (item : Value)
    (w : World σ) :
    ((Stage.slice start Query.openBound pos).step control item w).control = control := by
  have hpos : ¬ Query.openBound ≤ pos := by
    rw [UInt64.le_iff_toNat_le]
    omega
  have hnext : ¬ Query.openBound ≤ pos + 1 := by
    have hle := toNat_succ_le pos
    rw [UInt64.le_iff_toNat_le]
    omega
  simp only [step, if_neg hpos, if_neg hnext]

end Stage

/-! ### Terminals -/

namespace Terminal

/-- What the terminal has counted. -/
def counters : Terminal σ ρ → List UInt64
  | .count _ counts => [counts.total, counts.num]
  | .length n => [n]
  | .indexOf _ pos _ => [pos]
  | _ => []

/-- The position that a search has found. -/
def found? : Terminal σ ρ → Option UInt64
  | .indexOf _ _ found? => found?
  | _ => none

/-- The terminal has counted no further than `k`, not more that pass a test than there are, and
    has found only a position that it has gone by. -/
def Within (k : Nat) : Terminal σ ρ → Prop
  | .count _ counts => counts.num.toNat ≤ counts.total.toNat ∧ counts.total.toNat ≤ k
  | .length n => n.toNat ≤ k
  | .indexOf _ pos found? => pos.toNat ≤ k ∧ ∀ n, found? = some n → n.toNat < k
  | _ => True

variable {terminal : Terminal σ ρ} {k l : Nat}

theorem Within.mono (h : terminal.Within k) (hkl : k ≤ l) : terminal.Within l := by
  cases terminal with
  | count test counts => exact ⟨h.1, Nat.le_trans h.2 hkl⟩
  | length n => exact Nat.le_trans h hkl
  | indexOf target pos found? =>
    exact ⟨Nat.le_trans h.1 hkl, fun n hn => Nat.lt_of_lt_of_le (h.2 n hn) hkl⟩
  | _ => trivial

theorem Within.found_lt (h : terminal.Within k) {n : UInt64} (hn : terminal.found? = some n) :
    n.toNat < k := by
  cases terminal with
  | indexOf target pos found? => exact h.2 n hn
  | _ => cases hn

theorem within_start (question : Question σ ρ) : question.start.Within 0 := by
  cases question with
  | count test => exact ⟨Nat.le_refl 0, Nat.le_refl 0⟩
  | length => exact Nat.le_refl 0
  | indexOf target => exact ⟨Nat.le_refl 0, fun n hn => nomatch hn⟩
  | _ => trivial

/-- From a terminal that has counted no further than `k`, one arrival on. -/
structure Counts (k : Nat) (before after : Terminal σ ρ) : Prop where
  within : after.Within (k + 1)
  advances : List.Forall₂ Advances before.counters after.counters

theorem Counts.refl (h : terminal.Within k) : Counts k terminal terminal :=
  ⟨h.mono (Nat.le_succ k), List.forall₂_same.mpr fun n _ => Advances.refl n⟩

/-- One arrival counts for one at most.  Of two numbers that are put up together, the smaller
    stays the smaller because neither of them wraps around. -/
theorem Within.meet (h : terminal.Within k) (hk : k + 1 < 2 ^ 64) (arrival : Arrival σ) :
    Counts k terminal (terminal.meet arrival) := by
  unfold Terminal.meet
  cases terminal with
  | count test counts =>
    obtain ⟨hnum, htotal⟩ := h
    have hnext : (counts.total + 1).toNat = counts.total.toNat + 1 := toNat_succ (by omega)
    have hpassed : (counts.num + 1).toNat = counts.num.toNat + 1 := toNat_succ (by omega)
    have htested : Counts k (.count test counts)
        (.count test { counts with total := counts.total + 1 }) := by
      refine ⟨⟨?_, ?_⟩, .cons (Or.inr hnext) (.cons (Advances.refl _) .nil)⟩
      · simp only
        omega
      · simp only
        omega
    simp only [accept]
    split
    · refine ⟨⟨?_, ?_⟩, .cons (Or.inr hnext) (.cons (Or.inr hpassed) .nil)⟩
      · simp only
        omega
      · simp only
        omega
    · exact htested
    · exact htested
  | length n =>
    have hroom : n.toNat + 1 < 2 ^ 64 := Nat.lt_of_le_of_lt (Nat.succ_le_succ h) hk
    exact ⟨succ_le_succ h, .cons (Advances.succ hroom) .nil⟩
  | indexOf target pos found? =>
    obtain ⟨hpos, hfound⟩ := h
    have hroom : pos.toNat + 1 < 2 ^ 64 := Nat.lt_of_le_of_lt (Nat.succ_le_succ hpos) hk
    have hnext := succ_le_succ hpos
    simp only [accept]
    split
    · refine ⟨⟨hnext, ?_⟩, .cons (Advances.succ hroom) .nil⟩
      intro n hn
      obtain rfl := Option.some.inj hn
      exact Nat.lt_succ_of_le hpos
    · exact ⟨⟨hnext, fun n hn => Nat.lt_succ_of_lt (hfound n hn)⟩,
        .cons (Advances.succ hroom) .nil⟩
    · exact Counts.refl ⟨hpos, hfound⟩
  | groupBy key groups =>
    simp only [accept]
    split
    · split <;> exact ⟨trivial, .nil⟩
    · exact ⟨trivial, .nil⟩
  | extremum rank pick best? =>
    simp only [accept]
    split <;> exact ⟨trivial, .nil⟩
  | contains target found =>
    simp only [accept]
    split <;> exact ⟨trivial, .nil⟩
  | every test passed =>
    simp only [accept]
    split <;> exact ⟨trivial, .nil⟩
  | reduce fold acc? =>
    cases acc? with
    | none => exact ⟨trivial, .nil⟩
    | some acc =>
      simp only [accept]
      split <;> exact ⟨trivial, .nil⟩
  | _ => exact ⟨trivial, .nil⟩

/-- What a scan finds, it finds in its source. -/
theorem within_scan {question : Question σ ρ} {scan : List Value → World σ → Scan σ ρ}
    (hscan : question.start.scan? = some scan) {source : List Value}
    (hsource : source.length < 2 ^ 64) (w : World σ) :
    (scan source w).terminal.Within source.length := by
  have hstart := (within_start question).mono (Nat.zero_le source.length)
  cases question with
  | collect =>
    obtain rfl := Option.some.inj hscan
    trivial
  | indexOf target =>
    obtain rfl := Option.some.inj hscan
    simp only
    split
    · next position hfound =>
      have hposition := firstPosition?_lt hfound
      rw [Nat.zero_add] at hposition
      refine ⟨hstart.1, ?_⟩
      intro n hn
      obtain rfl := Option.some.inj hn
      rw [UInt64.toNat_ofNat_of_lt' (Nat.lt_trans hposition hsource)]
      exact hposition
    · exact hstart
    · exact hstart
  | invoke host method? =>
    obtain rfl := Option.some.inj hscan
    simp only
    split <;> trivial
  | _ => cases hscan

end Terminal

/-! ### Lines -/

namespace Line

/-- All counters of a line: the number of skips, and those of the stages and the terminal. -/
def counters (line : Line σ ρ) : List UInt64 :=
  line.control.skipped :: line.stages.map Stage.counter ++ line.terminal.counters

/-- The line has counted no further than `k` anywhere. -/
structure Within (line : Line σ ρ) (k : Nat) : Prop where
  skipped : line.control.skipped.toNat ≤ k
  stages : ∀ stage ∈ line.stages, stage.Within k
  terminal : line.terminal.Within k

variable {line : Line σ ρ} {k : Nat}

/-- All skips together count an element once: the one that counts it drops it. -/
theorem skipped_transit (control : Control) (item : Value) (w : World σ)
    (stages : List (Stage σ)) :
    Advances control.skipped (transit control item w stages).control.skipped := by
  induction stages generalizing control item w with
  | nil => exact Advances.refl _
  | cons stage rest ih =>
    simp only [transit]
    rcases stage.skipped_step_cases control item w with ⟨_, hflow, hcount⟩ | ⟨_, hsame⟩
    · rw [hflow]
      exact Or.inr hcount
    · have hkept : Advances control.skipped (stage.step control item w).control.skipped :=
        Or.inl (congrArg UInt64.toNat hsame)
      rcases (stage.step control item w).flow with fault | flow
      · exact hkept
      · cases flow with
        | drop => exact hkept
        | forward next =>
          have honward := ih (stage.step control item w).control next
            (stage.step control item w).world
          rw [hsame] at honward
          exact honward

/-- An element arrives at each stage at most once. -/
theorem counts_transit {stages : List (Stage σ)} (h : ∀ stage ∈ stages, stage.Within k)
    (hk : k + 1 < 2 ^ 64) (control : Control) (item : Value) (w : World σ) :
    List.Forall₂ (Stage.Counts k) stages (transit control item w stages).stages := by
  induction stages generalizing control item w with
  | nil => exact .nil
  | cons stage rest ih =>
    have hrest := fun stage hmem => h stage (List.mem_cons_of_mem _ hmem)
    have hfirst := (h stage List.mem_cons_self).meet hk ⟨item, w⟩
    rw [Stage.meet, ← stage.stage_step control] at hfirst
    have hkept : List.Forall₂ (Stage.Counts k) rest rest :=
      List.forall₂_same.mpr fun stage hmem => Stage.Counts.refl (hrest stage hmem)
    simp only [transit]
    rcases (stage.step control item w).flow with fault | flow
    · exact .cons hfirst hkept
    · cases flow with
      | drop => exact .cons hfirst hkept
      | forward next => exact .cons hfirst (ih hrest _ next _)

/-- **One element counts for one at most, at every place.** -/
theorem Within.dispatch (h : line.Within k) (hk : k + 1 < 2 ^ 64) (item : Value) :
    (line.dispatch item).line.Within (k + 1) ∧
      List.Forall₂ Advances line.counters (line.dispatch item).line.counters := by
  have hskipped := skipped_transit line.control item line.world line.stages
  have hstages := counts_transit h.stages hk line.control item line.world
  have hterminal : Terminal.Counts k line.terminal (line.dispatch item).line.terminal := by
    rw [terminal_dispatch]
    cases line.arrival? item line.stages.length with
    | none => exact Terminal.Counts.refl h.terminal
    | some arrival => exact h.terminal.meet hk arrival
  rw [← skipped_dispatch] at hskipped
  rw [← stages_dispatch] at hstages
  refine ⟨⟨?_, ?_, hterminal.within⟩, .cons hskipped (List.rel_append ?_ hterminal.advances)⟩
  · have hle := h.skipped
    rcases hskipped with hsame | hnext <;> omega
  · have hback : List.Forall₂ (fun after before => after.Within (k + 1) ∧ Stage.Counts k before after)
        (line.dispatch item).line.stages line.stages :=
      List.Forall₂.flip (hstages.imp fun _ _ hcounts => ⟨hcounts.within, hcounts⟩)
    exact ((List.forall₂_and_left _ _).mp hback).1
  · rw [List.forall₂_map_left_iff, List.forall₂_map_right_iff]
    exact hstages.imp fun _ _ hcounts => hcounts.advances

/-- By induction on the elements sent. -/
theorem Within.after (h : line.Within k) (items : List Value) (hk : k + items.length < 2 ^ 64) :
    (line.after items).Within (k + items.length) := by
  induction items generalizing line k with
  | nil => exact h
  | cons item rest ih =>
    rw [List.length_cons] at hk ⊢
    have hrest := ih (h.dispatch (by omega) item).1 (by omega)
    rw [Nat.add_comm rest.length, ← Nat.add_assoc]
    exact hrest

/-- Where no number of the line is near the largest there is: a position that was found is the
    same with a sign, and a slice without an end has not come to the bound it has instead, and
    does not with its next element. -/
structure Roomy (line : Line σ ρ) : Prop where
  position {n : UInt64} : line.terminal.found? = some n → n.toInt64.toInt = n.toNat
  openSlice {start pos : UInt64} : Stage.slice start Query.openBound pos ∈ line.stages →
    pos < Query.openBound ∧ ∀ control item (w : World σ),
      ((Stage.slice start Query.openBound pos).step control item w).control = control

theorem Within.mono (h : line.Within k) {l : Nat} (hkl : k ≤ l) : line.Within l :=
  ⟨Nat.le_trans h.skipped hkl, fun stage hmem => (h.stages stage hmem).mono hkl,
    h.terminal.mono hkl⟩

theorem Within.roomy (h : line.Within k) (hk : k < 2 ^ 63) : line.Roomy := by
  constructor
  case position =>
    intro n hn
    have hlt := Nat.lt_trans (h.terminal.found_lt hn) hk
    have hsign : 2 * n.toBitVec.toNat < 2 ^ 64 := by
      rw [UInt64.toNat_toBitVec]
      omega
    exact BitVec.toInt_eq_toNat_of_lt hsign
  case openSlice =>
    intro start pos hmem
    have hpos : pos.toNat ≤ k := h.stages _ hmem
    have hroom : pos.toNat + 1 < Query.openBound.toNat := by
      have hbound : Query.openBound.toNat = 2 ^ 64 - 1 := rfl
      omega
    refine ⟨UInt64.lt_iff_toNat_lt.mpr (Nat.lt_of_succ_lt hroom), ?_⟩
    exact Stage.control_step_openSlice hroom

/-! ### Runs -/

theorem after_concat (line : Line σ ρ) (items : List Value) (item : Value) :
    line.after (items ++ [item]) = ((line.after items).dispatch item).line :=
  List.foldl_concat _ line item items

/-- How the counters stand while a line is sent a source, and in what the run leaves. -/
structure CountsOnce (line left : Line σ ρ) (source : List Value) : Prop where
  within {k : Nat} : k ≤ (line.sent source).length →
    (line.after ((line.sent source).take k)).Within k
  leaves : left.Within source.length
  -- No counter is put up and comes back to zero.
  advances {k : Nat} : k < (line.sent source).length →
    List.Forall₂ Advances (line.after ((line.sent source).take k)).counters
      (line.after ((line.sent source).take (k + 1))).counters
  -- A source is shorter than half of the numbers that there are.
  roomy {k : Nat} : source.length < 2 ^ 63 → k ≤ (line.sent source).length →
    (line.after ((line.sent source).take k)).Roomy
  leavesRoomy : source.length < 2 ^ 63 → left.Roomy

theorem countsOnce_of_within {line left : Line σ ρ} {source : List Value}
    (hline : line.Within 0) (hleft : left.Within source.length)
    (hsource : source.length < 2 ^ 64) : CountsOnce line left source := by
  have hsent := (line.prefix_sent source).length_le
  have hwithin : ∀ k ≤ (line.sent source).length,
      (line.after ((line.sent source).take k)).Within k := by
    intro k hk
    have htake := List.length_take_of_le hk
    have hafter := hline.after ((line.sent source).take k) (by omega)
    rwa [htake, Nat.zero_add] at hafter
  constructor
  case within => exact hwithin _
  case leaves => exact hleft
  case advances =>
    intro k hk
    have hbefore := hwithin k (Nat.le_of_lt hk)
    rw [List.take_add_one, List.getElem?_eq_getElem hk, Option.toList_some, after_concat]
    exact (hbefore.dispatch (by omega) _).2
  case roomy =>
    intro k hsigned hk
    exact (hwithin k hk).roomy (by omega)
  case leavesRoomy =>
    intro hsigned
    exact hleft.roomy hsigned

end Line

namespace Query

/-- The reset clears whatever the query had counted before the run. -/
theorem within_line_prepare (q : Query σ) (question : Question σ ρ) (w : World σ) :
    ((q.prepare question.start).line question.start w).Within 0 := by
  refine ⟨Nat.le_refl 0, ?_, Terminal.within_start question⟩
  intro stage hmem
  obtain ⟨built, _, rfl⟩ := List.mem_map.mp hmem
  exact Stage.within_reset built

/-- What a run leaves has counted no further than the source is long, also if it scanned. -/
theorem within_traverse_prepare (q : Query σ) (question : Question σ ρ) (w : World σ)
    (hsource : q.source.length < 2 ^ 64) :
    ((q.prepare question.start).traverse question.start w).line.Within q.source.length := by
  have hstart := q.within_line_prepare question w
  cases hscan : (q.prepare question.start).scan? question.start with
  | none =>
    have hsent := (((q.prepare question.start).line question.start w).prefix_sent
      q.source).length_le
    rw [traverse_prepare hscan, Line.line_drainUntilStop]
    exact (hstart.after _ (by omega)).mono (by omega)
  | some scan =>
    have hterminal := scan?_start_of_scan hscan
    rw [traverse_of_scan hscan]
    have hkept := hstart.mono (Nat.zero_le q.source.length)
    exact ⟨hkept.skipped, hkept.stages, Terminal.within_scan hterminal hsource w⟩

/-- **No counter of a run wraps around,** whatever the query had counted before it. -/
theorem counters_never_wrap (q : Query σ) (question : Question σ ρ) (w : World σ)
    (hsource : q.source.length < 2 ^ 64) :
    let line := (q.prepare question.start).line question.start w
    let left := ((q.prepare question.start).traverse question.start w).line
    Line.CountsOnce line left q.source ∧
      ((q.prepare question.start).scan? question.start = none →
        left = line.after (line.sent q.source)) ∧
      (q.ask question w).query.stages = left.stages ∧
      (q.ask question w).query.control = left.control := by
  intro line left
  have hline := q.within_line_prepare question w
  have hleft := q.within_traverse_prepare question w hsource
  refine ⟨Line.countsOnce_of_within hline hleft hsource, ?_, ?_, ?_⟩
  · intro hscan
    show ((q.prepare question.start).traverse question.start w).line = _
    rw [traverse_prepare hscan, Line.line_drainUntilStop]
  · exact q.stages_run question.start w
  · exact q.control_run question.start w

/-- Stages that come with numbers near the largest there is. -/
theorem counters_never_wrap_used :
    let q : Query Unit :=
      { source := [.null, .bool true, .null]
        stages := [.zip [.null] (-1), .take 2 (-1), .slice 1 openBound (-1)]
        control := { skipped := -1 } }
    let question : Question Unit Int64 := .indexOf (.value .null)
    let line := (q.prepare question.start).line question.start ⟨0, ()⟩
    q.source.length < 2 ^ 64 ∧ line.sent q.source = [.null, .bool true] ∧
      Line.CountsOnce line ((q.prepare question.start).traverse question.start ⟨0, ()⟩).line
        q.source := by
  intro q question line
  have hsource : q.source.length < 2 ^ 64 := by decide
  exact ⟨hsource, rfl, (q.counters_never_wrap question ⟨0, ()⟩ hsource).1⟩

end Query

end FusedQuery

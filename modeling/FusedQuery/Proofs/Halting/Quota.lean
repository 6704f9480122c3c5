/-
  FusedQuery/Proofs/Halting/Quota.lean
  ====================================
  **What stages and terminals wait for before they ask to stop.**

  A stage that can stop waits for its quota: for so many of the elements that arrive at it, or
  for the first of them that passes a test.  A terminal that can stop waits for one element.

  A stage counts in a way of its own, up or from an offset, with `=` or with `≤`.  Read as what
  is left of a quota (`Stage.quota?`), all of it is one count down: an arrival that counts takes
  one off, and the stop is asked for when nothing is left (`step_countsDown`,
  `accept_countsDown`).
-/
import FusedQuery.Proofs.Stage.Frame
import FusedQuery.Query.Ask

namespace FusedQuery

variable {σ ρ : Type}

/-- An element that arrives somewhere, and the world in which it does. -/
structure Arrival (σ : Type) where
  item : Value
  world : World σ

/-- The arrivals that something waits for: so many of those that count. -/
structure Quota (σ : Type) where
  number : Nat
  counts : Arrival σ → Bool

namespace Quota

/-- So many arrivals, whatever they are. -/
def any (number : Nat) : Quota σ := { number, counts := fun _ => true }

/-- The first arrival for which a test gives the answer. -/
def answering (test : Predicate σ) (answer : Bool) : Quota σ where
  number := 1
  counts := fun arrival =>
    match ((test arrival.item).run arrival.world).result with
    | .ok given => given == answer
    | .error _ => false

/-- What is left of the quota after what arrives, if something does. -/
def after (quota : Quota σ) (arrival? : Option (Arrival σ)) : Quota σ :=
  if arrival?.any quota.counts then { quota with number := quota.number - 1 } else quota

/-- Nothing is left to wait for. -/
def Reached (quota? : Option (Quota σ)) : Prop := ∃ quota, quota? = some quota ∧ quota.number = 0

theorem not_reached_none : ¬ Reached (none : Option (Quota σ)) := by
  rintro ⟨quota, h, _⟩
  cases h

theorem reached_some {quota : Quota σ} : Reached (some quota) ↔ quota.number = 0 := by
  constructor
  · rintro ⟨_, h, hzero⟩
    obtain rfl := Option.some.inj h
    exact hzero
  · intro hzero
    exact ⟨quota, rfl, hzero⟩

end Quota

/-- The quota of what an operator adds. -/
def Operator.quota? : Operator σ → Option (Quota σ)
  | .slice start end? =>
    if start < 0 || end?.any (· < 0) then some (.any 1)
    else end?.map fun bound => .any (max bound.toInt.toNat 1)
  | .first => some (.any 1)
  | .firstWhere test => some (.answering test true)
  | .take n => some (.any (max n.toNat 1))
  | .get n => if n < 0 then some (.any 1) else some (.any (n.toInt.toNat + 1))
  | _ => none

/-- The quota of the terminal that answers a question. -/
def Question.quota? : Question σ ρ → Option (Quota σ)
  | .head => some (.any 1)
  | .contains target => some (.answering target.holds true)
  | .every test => some (.answering test false)
  | .indexOf target => some (.answering target.holds true)
  | _ => none

/-! ### What is left to wait for -/

/-- What a stage still waits for, in the state that it is in. -/
def Stage.quota? : Stage σ → Option (Quota σ)
  | .slice _ bound pos => some (.any (max bound.toNat 1 - pos.toNat))
  | .first none => some (.any 1)
  | .first (some test) => some (.answering test true)
  | .take limit taken => some (.any (max limit.toNat 1 - taken.toNat))
  | .get index pos => some (.any (index.toNat + 1 - pos.toNat))
  | .halt => some (.any 1)
  | _ => none

def Terminal.quota? : Terminal σ ρ → Option (Quota σ)
  | .head _ => some (.any 1)
  | .contains target _ => some (.answering target.holds true)
  | .every test _ => some (.answering test false)
  | .indexOf target _ _ => some (.answering target.holds true)
  | _ => none

theorem Question.quota?_start (question : Question σ ρ) :
    question.start.quota? = question.quota? := by
  cases question <;> rfl

theorem Stage.not_reached_reset (stage : Stage σ) : ¬ Quota.Reached stage.reset.quota? := by
  rintro ⟨quota, hquota, hzero⟩
  cases stage with
  | slice start bound pos =>
    obtain rfl := Option.some.inj hquota
    simp only [Quota.any, UInt64.toNat_zero] at hzero
    omega
  | first test? =>
    cases test? with
    | none =>
      obtain rfl := Option.some.inj hquota
      cases hzero
    | some test =>
      obtain rfl := Option.some.inj hquota
      cases hzero
  | take limit taken =>
    obtain rfl := Option.some.inj hquota
    simp only [Quota.any, UInt64.toNat_zero] at hzero
    omega
  | get index pos =>
    obtain rfl := Option.some.inj hquota
    simp only [Quota.any, UInt64.toNat_zero] at hzero
    omega
  | halt =>
    obtain rfl := Option.some.inj hquota
    cases hzero
  | _ => cases hquota

theorem Question.not_reached (question : Question σ ρ) : ¬ Quota.Reached question.quota? := by
  rintro ⟨quota, hquota, hzero⟩
  cases question with
  | head =>
    obtain rfl := Option.some.inj hquota
    cases hzero
  | contains target =>
    obtain rfl := Option.some.inj hquota
    cases hzero
  | every test =>
    obtain rfl := Option.some.inj hquota
    cases hzero
  | indexOf target =>
    obtain rfl := Option.some.inj hquota
    cases hzero
  | _ => cases hquota

/-- An arrival counts down: the stop is asked for if nothing is left then, and otherwise the rest
    is what is waited for from then on. -/
structure CountsDown (arrival : Arrival σ) (before? after? : Option (Quota σ))
    (before after : Control) : Prop where
  stop : after.stop = true ↔
    before.stop = true ∨ Quota.Reached (before?.map (·.after (some arrival)))
  left : ¬ Quota.Reached (before?.map (·.after (some arrival))) →
    after? = before?.map (·.after (some arrival))

namespace CountsDown

variable {arrival : Arrival σ} {control : Control}

/-- Where the quota is not reached, the control stays and the rest is kept. -/
theorem of_not_reached {before? after? : Option (Quota σ)} {after : Control}
    (h : ¬ Quota.Reached (before?.map (·.after (some arrival))))
    (hstop : after.stop = control.stop)
    (hleft : after? = before?.map (·.after (some arrival))) :
    CountsDown arrival before? after? control after := by
  constructor
  · rw [hstop]
    constructor
    · intro hbefore
      exact Or.inl hbefore
    · rintro (hbefore | hreached)
      · exact hbefore
      · exact absurd hreached h
  · intro _
    exact hleft

/-- Where there is no quota, there is nothing to count. -/
theorem of_none {after : Control} (h : after.stop = control.stop) :
    CountsDown arrival none none control after :=
  of_not_reached Quota.not_reached_none h rfl

/-- The arrival was the last to wait for. -/
theorem of_halt {quota : Quota σ} {after? : Option (Quota σ)}
    (h : (quota.after (some arrival)).number = 0) :
    CountsDown arrival (some quota) after? control control.halt := by
  have hreached := Quota.reached_some.mpr h
  constructor
  · constructor
    · intro _
      exact Or.inr hreached
    · intro _
      rfl
  · intro hnot
    exact absurd hreached hnot

/-- There is more to wait for. -/
theorem of_left {quota : Quota σ} {after? : Option (Quota σ)}
    (h : (quota.after (some arrival)).number ≠ 0)
    (hleft : after? = some (quota.after (some arrival))) :
    CountsDown arrival (some quota) after? control control := by
  apply of_not_reached _ rfl hleft
  intro hreached
  exact h (Quota.reached_some.mp hreached)

/-- The last of so many arrivals. -/
theorem any_last {number : Nat} {after? : Option (Quota σ)} (h : number ≤ 1) :
    CountsDown arrival (some (.any number)) after? control control.halt := by
  apply of_halt
  exact Nat.sub_eq_zero_of_le h

/-- One of so many arrivals, and not the last. -/
theorem any_more {number left : Nat} (h : number = left + 1) (hleft : left ≠ 0) :
    CountsDown arrival (some (.any number)) (some (.any left)) control control := by
  subst h
  exact of_left hleft rfl

/-- What waits for an answer to a test stops at that answer and goes on after the other. -/
theorem of_answer {test : Predicate σ} (answer : Bool) (control : Control) {given : Bool}
    {item : Value} {w : World σ} (h : ((test item).run w).result = .ok given) :
    CountsDown ⟨item, w⟩ (some (.answering test answer)) (some (.answering test answer)) control
      (if given = answer then control.halt else control) := by
  by_cases hanswer : given = answer
  · rw [if_pos hanswer]
    apply of_halt
    simp [Quota.after, Quota.answering, h, hanswer]
  · rw [if_neg hanswer]
    have hafter : (Quota.answering test answer).after (some ⟨item, w⟩) =
        Quota.answering test answer := by
      simp [Quota.after, Quota.answering, h, hanswer]
    apply of_left
    · rw [hafter]
      exact Nat.one_ne_zero
    · rw [hafter]

end CountsDown

/-! ### One arrival at a stage -/

namespace Stage

/-- **A step that gets through counts down,** if there is still something to wait for. -/
theorem step_countsDown (stage : Stage σ) (control : Control) (item : Value) (w : World σ)
    {flow : Flow} (hflow : (stage.step control item w).flow = .ok flow)
    (hopen : ¬ Quota.Reached stage.quota?) :
    CountsDown ⟨item, w⟩ stage.quota? (stage.step control item w).stage.quota? control
      (stage.step control item w).control := by
  cases stage with
  | slice start bound pos =>
    simp only [step]
    split
    · next hdone =>
      have hnat := UInt64.le_iff_toNat_le.mp hdone
      exact CountsDown.any_last (by omega)
    · next hmore =>
      have hnext := toNat_succ_of_lt (UInt64.not_le.mp hmore)
      split
      · next hlast =>
        have hnat := UInt64.le_iff_toNat_le.mp hlast
        exact CountsDown.any_last (by omega)
      · next hlast =>
        have hnat := UInt64.lt_iff_toNat_lt.mp (UInt64.not_le.mp hlast)
        exact CountsDown.any_more (by omega) (by omega)
  | first test? =>
    cases test? with
    | none => exact CountsDown.of_halt rfl
    | some test =>
      simp only [step] at hflow ⊢
      cases hresult : ((test item).run w).result with
      | error fault =>
        rw [hresult] at hflow
        cases hflow
      | ok given =>
        have hanswer := CountsDown.of_answer true control hresult
        cases given with
        | true => exact hanswer
        | false => exact hanswer
  | take limit taken =>
    simp only [step]
    split
    · next hdone =>
      have hnat := UInt64.le_iff_toNat_le.mp hdone
      exact CountsDown.any_last (by omega)
    · next hmore =>
      have hnat := UInt64.lt_iff_toNat_lt.mp (UInt64.not_le.mp hmore)
      have hnext := toNat_succ_of_lt (UInt64.not_le.mp hmore)
      split
      · next hlast =>
        have hlimit := congrArg UInt64.toNat hlast
        exact CountsDown.any_last (by omega)
      · next hlast =>
        have hlimit : (taken + 1).toNat ≠ limit.toNat := fun heq => hlast (UInt64.toNat_inj.mp heq)
        exact CountsDown.any_more (by omega) (by omega)
  | get index pos =>
    have hleft : index.toNat + 1 - pos.toNat ≠ 0 := fun hzero =>
      hopen (Quota.reached_some.mpr hzero)
    simp only [step]
    split
    · next hhere =>
      subst hhere
      exact CountsDown.any_last (by omega)
    · next helse =>
      have hindex : pos.toNat ≠ index.toNat := fun heq => helse (UInt64.toNat_inj.mp heq)
      have hlt : pos < index := UInt64.lt_iff_toNat_lt.mpr (by omega)
      have hnext := toNat_succ_of_lt hlt
      exact CountsDown.any_more (by omega) (by omega)
  | halt => exact CountsDown.of_halt rfl
  | skip count =>
    simp only [step]
    split
    · exact CountsDown.of_none rfl
    · exact CountsDown.of_none rfl
  | uniq eq? seen =>
    simp only [step]
    split
    · split
      · exact CountsDown.of_none rfl
      · exact CountsDown.of_none rfl
    · split
      · exact CountsDown.of_none rfl
      · exact CountsDown.of_none rfl
      · exact CountsDown.of_none rfl
  | _ => exact CountsDown.of_none rfl

end Stage

/-! ### One arrival at a terminal -/

namespace Terminal

theorem accept_countsDown (terminal : Terminal σ ρ) (control : Control) (item : Value)
    (w : World σ) (hstatus : (terminal.accept control item w).status = .ok ()) :
    CountsDown ⟨item, w⟩ terminal.quota? (terminal.accept control item w).terminal.quota? control
      (terminal.accept control item w).control := by
  cases terminal with
  | head item? => exact CountsDown.of_halt rfl
  | contains target found =>
    simp only [accept] at hstatus ⊢
    cases hresult : ((target.holds item).run w).result with
    | error fault =>
      rw [hresult] at hstatus
      cases hstatus
    | ok given =>
      have hanswer := CountsDown.of_answer true control hresult
      cases given with
      | true => exact hanswer
      | false => exact hanswer
  | every test passed =>
    simp only [accept] at hstatus ⊢
    cases hresult : ((test item).run w).result with
    | error fault =>
      rw [hresult] at hstatus
      cases hstatus
    | ok given =>
      have hanswer := CountsDown.of_answer false control hresult
      cases given with
      | true => exact hanswer
      | false => exact hanswer
  | indexOf target pos found? =>
    simp only [accept] at hstatus ⊢
    cases hresult : ((target.holds item).run w).result with
    | error fault =>
      rw [hresult] at hstatus
      cases hstatus
    | ok given =>
      have hanswer := CountsDown.of_answer true control hresult
      cases given with
      | true => exact hanswer
      | false => exact hanswer
  | count test counts =>
    simp only [accept]
    split <;> exact CountsDown.of_none rfl
  | groupBy key groups =>
    simp only [accept]
    split
    · split <;> exact CountsDown.of_none rfl
    · exact CountsDown.of_none rfl
  | extremum rank pick best? =>
    simp only [accept]
    split <;> exact CountsDown.of_none rfl
  | reduce fold acc? =>
    cases acc? with
    | none => exact CountsDown.of_none rfl
    | some acc =>
      simp only [accept]
      split <;> exact CountsDown.of_none rfl
  | _ => exact CountsDown.of_none rfl

end Terminal

end FusedQuery

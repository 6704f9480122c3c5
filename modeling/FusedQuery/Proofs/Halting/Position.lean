/-
  FusedQuery/Proofs/Halting/Position.lean
  =======================================
  **A traversal halts with the element that meets a quota.**

  The places of a line are its stages and, behind the last of them, its terminal.  What comes
  through the stages before a place arrives at it (`arrivals`).  A dispatch lets every place
  count down by what arrives there, and asks to stop if one of them has nothing left to wait for
  (`send_countsDown`).  So the loop goes on until the first element with which a quota is
  reached, or to the end of the source (`drainUntilStop_halts`).
-/
import FusedQuery.Proofs.Halting.Quota
import FusedQuery.Proofs.Line.Loop

namespace FusedQuery

variable {σ ρ : Type}

namespace Line

/-! ### Arrivals -/

def Transit.arrival? (t : Transit σ) : Option (Arrival σ) :=
  match t.flow with
  | .ok (.forward item) => some ⟨item, t.world⟩
  | _ => none

/-- What arrives at a place when an element is sent: what comes through the stages before it. -/
def arrival? (line : Line σ ρ) (item : Value) (place : Nat) : Option (Arrival σ) :=
  (transit line.control item line.world (line.stages.take place)).arrival?

/-- What arrives at a place when elements are sent one after the other. -/
def arrivals (place : Nat) (line : Line σ ρ) : List Value → List (Arrival σ)
  | [] => []
  | item :: rest =>
    (line.arrival? item place).toList ++ arrivals place (line.dispatch item).line rest

theorem length_arrivals_le (place : Nat) (line : Line σ ρ) (items : List Value) :
    (line.arrivals place items).length ≤ items.length := by
  induction items generalizing line with
  | nil => exact Nat.le_refl 0
  | cons item rest ih =>
    have hrest := ih (line.dispatch item).line
    rw [arrivals, List.length_append, List.length_cons]
    cases line.arrival? item place with
    | none =>
      simp only [Option.toList_none, List.length_nil]
      omega
    | some arrival =>
      simp only [Option.toList_some, List.length_singleton]
      omega

/-- One of the quotas, which are given by place, is reached with the elements sent. -/
def Reaches (line : Line σ ρ) (quotas : List (Option (Quota σ))) (items : List Value) : Prop :=
  ∃ place quota, quotas[place]? = some (some quota) ∧
    quota.number ≤ (line.arrivals place items).countP quota.counts

/-! ### One element -/

/-- What the places of a line still wait for. -/
def quotas (line : Line σ ρ) : List (Option (Quota σ)) :=
  line.stages.map Stage.quota? ++ [line.terminal.quota?]

/-- There is something left to wait for at every place that waits. -/
def Open (quotas : List (Option (Quota σ))) : Prop :=
  ∀ place : Nat, ¬ Quota.Reached quotas[place]?.join

/-- What is left of the quota of a place, after what arrives at each of them. -/
def remaining (quotas : List (Option (Quota σ))) (arrival? : Nat → Option (Arrival σ))
    (place : Nat) : Option (Quota σ) :=
  quotas[place]?.join.map fun quota => quota.after (arrival? place)

/-- Where nothing arrives, nothing is taken off. -/
theorem remaining_of_none {quotas : List (Option (Quota σ))}
    {arrival? : Nat → Option (Arrival σ)} {place : Nat} (h : arrival? place = none) :
    remaining quotas arrival? place = quotas[place]?.join := by
  unfold remaining
  rw [h]
  cases quotas[place]?.join <;> rfl

/-- Every place counts down by what arrives there, and if one of them has nothing left to wait
    for, then the stop is asked for. -/
structure AllCountDown (arrival? : Nat → Option (Arrival σ))
    (before? after? : List (Option (Quota σ))) (before after : Control) : Prop where
  stop : after.stop = true ↔
    before.stop = true ∨ ∃ place, Quota.Reached (remaining before? arrival? place)
  left : (∀ place, ¬ Quota.Reached (remaining before? arrival? place)) →
    ∀ place, after?[place]?.join = remaining before? arrival? place

namespace AllCountDown

variable {arrival? : Nat → Option (Arrival σ)} {control between after : Control}
  {rest rest' : List (Option (Quota σ))}

/-- Nothing is taken off anywhere. -/
theorem of_kept (hopen : Open rest)
    (h : ∀ place, remaining rest arrival? place = rest[place]?.join) :
    AllCountDown arrival? rest rest control control := by
  constructor
  · constructor
    · intro hstop
      exact Or.inl hstop
    · rintro (hstop | ⟨place, hreached⟩)
      · exact hstop
      · rw [h] at hreached
        exact absurd hreached (hopen place)
  · intro _ place
    exact (h place).symm

/-- The first place counts down, and so do those behind it. -/
theorem cons {quota? next? : Option (Quota σ)} {arrival : Arrival σ}
    (harrival : arrival? 0 = some arrival)
    (hfirst : CountsDown arrival quota? next? control between)
    (honward : AllCountDown (fun place => arrival? (place + 1)) rest rest' between after) :
    AllCountDown arrival? (quota? :: rest) (next? :: rest') control after := by
  have hzero : remaining (quota? :: rest) arrival? 0 =
      quota?.map fun quota => quota.after (some arrival) := by
    unfold remaining
    rw [harrival]
    rfl
  constructor
  · rw [honward.stop, hfirst.stop, ← hzero, or_assoc]
    have hplaces := Nat.or_exists_add_one
      (p := fun place => Quota.Reached (remaining (quota? :: rest) arrival? place))
    rw [← hplaces]
    rfl
  · intro hnot place
    cases place with
    | zero =>
      have hleft := hfirst.left (hzero ▸ hnot 0)
      rw [hzero]
      exact hleft
    | succ place => exact honward.left (fun later => hnot (later + 1)) place

end AllCountDown

/-- By induction on the stages.  A stage may drop the element, and then nothing arrives at the
    places behind it. -/
theorem send_countsDown {stages : List (Stage σ)} {terminal : Terminal σ ρ} {control : Control}
    {item : Value} {w : World σ}
    (hstatus : (send control terminal item w stages).status = .ok ())
    (hopen : Open (stages.map Stage.quota? ++ [terminal.quota?])) :
    AllCountDown (fun place => (transit control item w (stages.take place)).arrival?)
      (stages.map Stage.quota? ++ [terminal.quota?])
      (send control terminal item w stages).line.quotas control
      (send control terminal item w stages).line.control := by
  induction stages generalizing control item w with
  | nil =>
    have haccept := terminal.accept_countsDown control item w hstatus
    apply AllCountDown.cons rfl haccept
    exact AllCountDown.of_kept (fun _ => Quota.not_reached_none) (fun _ => rfl)
  | cons stage rest ih =>
    have hrest : Open (rest.map Stage.quota? ++ [terminal.quota?]) :=
      fun place => hopen (place + 1)
    simp only [send] at hstatus ⊢
    cases hflow : (stage.step control item w).flow with
    | error fault =>
      rw [hflow] at hstatus
      cases hstatus
    | ok flow =>
      have hstep := stage.step_countsDown control item w hflow (hopen 0)
      rw [hflow] at hstatus
      cases flow with
      | drop =>
        apply AllCountDown.cons rfl hstep
        apply AllCountDown.of_kept hrest
        intro place
        apply remaining_of_none
        simp only [List.take_succ_cons, transit, hflow, Transit.arrival?]
      | forward next =>
        have honward := ih hstatus hrest
        apply AllCountDown.cons rfl hstep
        simp only [List.take_succ_cons, transit, hflow]
        exact honward

theorem dispatch_countsDown {line : Line σ ρ} {item : Value}
    (hstatus : (line.dispatch item).status = .ok ()) (hopen : Open line.quotas) :
    AllCountDown (line.arrival? item) line.quotas (line.dispatch item).line.quotas line.control
      (line.dispatch item).line.control :=
  send_countsDown hstatus hopen

/-! ### A source -/

/-- A quota is reached by an arrival and later ones if what the first leaves is reached by the
    later ones. -/
theorem number_after_le_iff (quota : Quota σ) (arrival? : Option (Arrival σ))
    (later : List (Arrival σ)) :
    (quota.after arrival?).number ≤ later.countP (quota.after arrival?).counts ↔
      quota.number ≤ (arrival?.toList ++ later).countP quota.counts := by
  cases arrival? with
  | none => rfl
  | some arrival =>
    rw [Option.toList_some, List.singleton_append, List.countP_cons]
    cases hcounts : quota.counts arrival with
    | false =>
      have hafter : quota.after (some arrival) = quota := by
        simp only [Quota.after, Option.any_some, hcounts, Bool.false_eq_true, ↓reduceIte]
      rw [hafter, if_neg Bool.false_ne_true, Nat.add_zero]
    | true =>
      have hafter : quota.after (some arrival) = { quota with number := quota.number - 1 } := by
        simp only [Quota.after, Option.any_some, hcounts, ↓reduceIte]
      rw [hafter, if_pos rfl]
      exact Nat.sub_le_iff_le_add

theorem not_reaches_nil (line : Line σ ρ) {quotas : List (Option (Quota σ))}
    (hopen : Open quotas) : ¬ line.Reaches quotas [] := by
  rintro ⟨place, quota, hquota, hnumber⟩
  have hzero : quota.number = 0 := Nat.le_zero.mp hnumber
  apply hopen place
  rw [hquota]
  exact Quota.reached_some.mpr hzero

theorem reaches_singleton {line : Line σ ρ} {item : Value} {place : Nat}
    (h : Quota.Reached (remaining line.quotas (line.arrival? item) place)) :
    line.Reaches line.quotas [item] := by
  obtain ⟨left, hremaining, hzero⟩ := h
  obtain ⟨quota, hjoin, rfl⟩ := Option.map_eq_some_iff.mp hremaining
  refine ⟨place, quota, Option.join_eq_some_iff.mp hjoin, ?_⟩
  apply (number_after_le_iff quota (line.arrival? item place) []).mp
  rw [hzero]
  exact Nat.zero_le _

/-- As long as no quota is reached, the rest of the source has to reach what is left. -/
theorem reaches_cons {line next : Line σ ρ} {item : Value} {rest : List Value}
    (hnext : (line.dispatch item).line = next)
    (hleft : ∀ place : Nat,
      next.quotas[place]?.join = remaining line.quotas (line.arrival? item) place) :
    line.Reaches line.quotas (item :: rest) ↔ next.Reaches next.quotas rest := by
  subst hnext
  constructor
  · rintro ⟨place, quota, hquota, hnumber⟩
    refine ⟨place, quota.after (line.arrival? item place), ?_, ?_⟩
    · apply Option.join_eq_some_iff.mp
      rw [hleft, remaining, hquota]
      rfl
    · exact (number_after_le_iff quota _ _).mpr hnumber
  · rintro ⟨place, left, hquota, hnumber⟩
    have hjoin := hleft place
    rw [hquota, remaining] at hjoin
    obtain ⟨quota, hbefore, rfl⟩ := Option.map_eq_some_iff.mp hjoin.symm
    refine ⟨place, quota, Option.join_eq_some_iff.mp hbefore, ?_⟩
    exact (number_after_le_iff quota _ _).mp hnumber

/-- The loop sends `p` elements of a source: with fewer no quota is reached, and with those one
    is, unless they are all there are. -/
structure Halts (line : Line σ ρ) (source : List Value) (p : Nat) : Prop where
  le : p ≤ source.length
  before : ∀ k < p, ¬ line.Reaches line.quotas (source.take k)
  here : p < source.length → line.Reaches line.quotas (source.take p)

/-- **The loop goes on until a quota is reached.**  By induction on the source. -/
theorem drainUntilStop_halts {line : Line σ ρ} {visited n : Nat} {source : List Value}
    (hstop : line.control.stop = false) (hopen : Open line.quotas)
    (h : (line.drainUntilStop visited source).visited = .ok n) :
    ∃ p, n = visited + p ∧ line.Halts source p := by
  induction source generalizing line visited with
  | nil =>
    obtain rfl := Except.ok.inj h
    exact ⟨0, rfl, Nat.le_refl 0, fun k hk => absurd hk (Nat.not_lt_zero k),
      fun hlt => absurd hlt (Nat.lt_irrefl 0)⟩
  | cons item rest ih =>
    simp only [drainUntilStop, hstop, Bool.false_eq_true, ↓reduceIte] at h
    cases hstatus : (line.dispatch item).status with
    | error fault =>
      rw [hstatus] at h
      cases h
    | ok _ =>
      rw [hstatus] at h
      have hcount := dispatch_countsDown hstatus hopen
      have hnone := not_reaches_nil line hopen
      generalize hnext : (line.dispatch item).line = next at h hcount
      cases hhalt : next.control.stop with
      | true =>
        simp only [drainUntilStop_of_stop next.stages hhalt] at h
        obtain rfl := Except.ok.inj h
        refine ⟨1, rfl, ?_, ?_, ?_⟩
        · rw [List.length_cons]
          omega
        · intro k hk
          obtain rfl := Nat.lt_one_iff.mp hk
          exact hnone
        · intro _
          rcases hcount.stop.mp hhalt with hbefore | ⟨place, hreached⟩
          · rw [hstop] at hbefore
            cases hbefore
          · exact reaches_singleton hreached
      | false =>
        have hnot : ∀ place, ¬ Quota.Reached (remaining line.quotas (line.arrival? item) place) := by
          intro place hreached
          rw [hcount.stop.mpr (Or.inr ⟨place, hreached⟩)] at hhalt
          cases hhalt
        have hleft := hcount.left hnot
        have hopenNext : Open next.quotas := by
          intro place
          rw [hleft]
          exact hnot place
        obtain ⟨p, rfl, hle, hbefore, hhere⟩ := ih hhalt hopenNext h
        refine ⟨p + 1, by omega, ?_, ?_, ?_⟩
        · rw [List.length_cons]
          omega
        · intro k hk
          cases k with
          | zero => exact hnone
          | succ k =>
            rw [List.take_succ_cons, reaches_cons hnext hleft]
            exact hbefore k (by omega)
        · intro hlt
          rw [List.take_succ_cons, reaches_cons hnext hleft]
          rw [List.length_cons] at hlt
          exact hhere (by omega)

end Line

end FusedQuery

/-
  FusedQuery/Proofs/Uniq/Firsts.lean
  ==================================
  **Of the elements that repeat each other, the first is handed on.**

  A stage that leaves out repetitions keeps two tables.  Taken together they hold what it has
  handed on, and the one for plain data holds the keys of all that has arrived (`Remembers`):
  one arrival keeps it so (`Remembers.meet`), and so do all arrivals of a run
  (`Remembers.after`).  What the next arrival meets is then said without tables:

    * plain data is handed on if no arrival before it has its key (`GoesByKey`),
    * a reference is handed on if it equals none of the references handed on, of which it is
      told in turn and not beyond the first that it equals (`GoesByEquality`, `Asks`).

  The equality may be any act.  If its answers depend on its arguments alone, what is handed on
  is free of repetitions, and a second stage of the same kind changes nothing about it.
-/
import FusedQuery.Proofs.Line.Arrivals
import FusedQuery.Proofs.Meaning.Stages
import FusedQuery.Proofs.Scan.Agree

namespace FusedQuery

variable {σ ρ : Type}

namespace Stage

/-! ### What the next element meets -/

/-- Plain data is handed on unless its key has arrived before, and nothing is called. -/
structure GoesByKey (front : List (Arrival σ)) (item : Value) (w : World σ) (s : Step σ) :
    Prop where
  flow : s.flow = .ok (.forwardIf
    (front.all fun earlier => Key.ofValue? earlier.item ≠ Key.ofValue? item) item)
  world : s.world = w

/-- A reference is handed on if none of those given equals it.  They are asked about in turn, up
    to the first that does; if that fails, so does the step, and nothing is remembered. -/
structure GoesByEquality (eq : Equality σ) (refs : List Value) (item : Value) (w : World σ)
    (before : Stage σ) (s : Step σ) : Prop where
  flow : s.flow = ((refs.anyM fun earlier => eq earlier item).run w).result.map fun found =>
    .forwardIf (!found) item
  world : s.world = ((refs.anyM fun earlier => eq earlier item).run w).world
  failed {fault : Fault} : s.flow = .error fault → s.stage = before

/-- Of some references, those that an element is compared with: the first few, all but the last
    of which do not equal it, and all of them if none does. -/
structure Asks (eq : Equality σ) (refs : List Value) (item : Value) (w : World σ)
    (asked : List Value) : Prop where
  inOrder : asked <+: refs
  unequal : ((asked.dropLast.anyM fun earlier => eq earlier item).run w).result = .ok false
  all : ((refs.anyM fun earlier => eq earlier item).run w).result = .ok false → asked = refs

/-- An element repeats an earlier one: plain data by its key, a reference if it is said to. -/
def Repeats (verdict : Value → Value → Except Fault Bool) (earlier item : Value) : Prop :=
  Key.ofValue? earlier = Key.ofValue? item ∧
    (Key.ofValue? item = none → verdict earlier item = .ok true)

theorem repeats_eq_getD (eq? : Option (Equality σ)) :
    Seen.repeats eq? = eq?.getD fun earlier item => pure (earlier.same item) := by
  rcases eq? with _ | eq <;> rfl

theorem repeatsIn_eq_anyM (eq? : Option (Equality σ)) (item : Value) (refs : List Value) :
    Seen.repeatsIn eq? item refs = refs.anyM fun earlier => Seen.repeats eq? earlier item := by
  induction refs with
  | nil => rfl
  | cons earlier rest ih =>
    rw [Seen.repeatsIn, List.anyM_cons, ih]

/-! ### What the tables hold -/

/-- The tables hold what was handed on, and the keys of all plain data that arrived. -/
structure Remembers (seen : Seen) (front : List (Arrival σ)) (kept : List Value) : Prop
    extends Holds seen kept where
  arrived (key : Key) :
    key ∈ seen.keys ↔ ∃ earlier ∈ front, Key.ofValue? earlier.item = some key

namespace Remembers

variable {eq? : Option (Equality σ)} {seen : Seen} {front : List (Arrival σ)}
  {kept : List Value}

theorem empty : Remembers ({} : Seen) ([] : List (Arrival σ)) [] where
  toHolds := Holds.empty
  arrived := fun key => by simp

/-- A table that has the key of the arrival, if there is one, has those of all arrivals. -/
theorem arrived_concat {next : Seen} {arrival : Arrival σ}
    (h : ∀ key, key ∈ next.keys ↔ Key.ofValue? arrival.item = some key ∨
      ∃ earlier ∈ front, Key.ofValue? earlier.item = some key) (key : Key) :
    key ∈ next.keys ↔ ∃ earlier ∈ front ++ [arrival], Key.ofValue? earlier.item = some key := by
  rw [h]
  simp only [List.mem_append, List.mem_singleton, or_and_right, exists_or, exists_eq_left]
  exact Or.comm

theorem drop (h : Remembers seen front kept) {arrival : Arrival σ}
    (hknown : ∀ key, Key.ofValue? arrival.item = some key → key ∈ seen.keys) :
    Remembers seen (front ++ [arrival]) kept where
  toHolds := h.toHolds
  arrived := by
    apply arrived_concat
    intro key
    rw [← h.arrived]
    constructor
    · exact Or.inr
    · rintro (hkey | hmem)
      · exact hknown key hkey
      · exact hmem

theorem addKey (h : Remembers seen front kept) {arrival : Arrival σ} {key : Key}
    (hkey : Key.ofValue? arrival.item = some key) :
    Remembers (seen.addKey key) (front ++ [arrival]) (kept ++ [arrival.item]) where
  toHolds := h.toHolds.addKey hkey
  arrived := by
    apply arrived_concat
    intro other
    rw [← h.arrived, hkey, Option.some_inj, eq_comm (a := key)]
    exact List.mem_cons

theorem addRef (h : Remembers seen front kept) {arrival : Arrival σ}
    (hkey : Key.ofValue? arrival.item = none) :
    Remembers (seen.addRef arrival.item) (front ++ [arrival]) (kept ++ [arrival.item]) where
  toHolds := h.toHolds.addRef hkey
  arrived := by
    apply arrived_concat
    intro other
    rw [← h.arrived, hkey]
    simp only [reduceCtorEq, false_or]
    rfl

/-- One arrival. -/
theorem meet (h : Remembers seen front kept) (arrival : Arrival σ) :
    ∃ next, (Stage.uniq eq? seen).meet arrival = .uniq eq? next ∧
      Remembers next (front ++ [arrival])
        (kept ++ ((Stage.uniq eq? seen).step {} arrival.item arrival.world).out) := by
  unfold Stage.meet
  cases hkey : Key.ofValue? arrival.item with
  | some key =>
    by_cases hmem : key ∈ seen.keys
    · have hknown : ∀ other, Key.ofValue? arrival.item = some other → other ∈ seen.keys := by
        intro other hother
        rwa [← Option.some.inj (hkey.symm.trans hother)]
      simp only [step, hkey, if_pos hmem, Step.out, List.append_nil]
      exact ⟨seen, rfl, h.drop hknown⟩
    · simp only [step, hkey, if_neg hmem, Step.out]
      exact ⟨seen.addKey key, rfl, h.addKey hkey⟩
  | none =>
    have hknown : ∀ other, Key.ofValue? arrival.item = some other → other ∈ seen.keys := by
      intro other hother
      cases hkey.symm.trans hother
    simp only [step, hkey]
    rcases ((Seen.repeatsIn eq? arrival.item seen.refs).run arrival.world).result with
      fault | found
    · simp only [Step.out, List.append_nil]
      exact ⟨seen, rfl, h.drop hknown⟩
    · cases found with
      | true =>
        simp only [Step.out, List.append_nil]
        exact ⟨seen, rfl, h.drop hknown⟩
      | false =>
        simp only [Step.out]
        exact ⟨seen.addRef arrival.item, rfl, h.addRef hkey⟩

/-- Any number of arrivals, by induction on them. -/
theorem after (h : Remembers seen front kept) (arrivals : List (Arrival σ)) :
    ∃ next, (Stage.uniq eq? seen).after arrivals = .uniq eq? next ∧
      Remembers next (front ++ arrivals) (kept ++ (Stage.uniq eq? seen).passes arrivals) := by
  induction arrivals generalizing seen front kept with
  | nil =>
    rw [List.append_nil, passes, List.append_nil]
    exact ⟨seen, rfl, h⟩
  | cons arrival rest ih =>
    obtain ⟨next, hmeet, hnext⟩ := h.meet arrival
    obtain ⟨last, hafter, hlast⟩ := ih hnext
    refine ⟨last, ?_, ?_⟩
    · rw [← hafter, ← hmeet]
      rfl
    · rw [passes, hmeet, ← List.append_assoc]
      rwa [List.append_assoc, List.singleton_append] at hlast

/-! ### One step -/

theorem goesByKey (h : Remembers seen front kept) (control : Control) {item : Value} {key : Key}
    (hkey : Key.ofValue? item = some key) (w : World σ) :
    GoesByKey front item w ((Stage.uniq eq? seen).step control item w) := by
  have hall : (front.all fun earlier => Key.ofValue? earlier.item ≠ Key.ofValue? item) =
      decide (key ∉ seen.keys) := by
    rw [Bool.eq_iff_iff, decide_eq_true_iff, List.all_eq_true, h.arrived, hkey]
    simp only [decide_eq_true_iff, not_exists, not_and, ne_eq]
  by_cases hmem : key ∈ seen.keys
  · have hknown : decide (key ∉ seen.keys) = false := decide_eq_false (not_not_intro hmem)
    constructor
    · rw [hall, hknown]
      simp only [step, hkey, if_pos hmem]
      rfl
    · simp only [step, hkey, if_pos hmem]
  · have hnew : decide (key ∉ seen.keys) = true := decide_eq_true hmem
    constructor
    · rw [hall, hnew]
      simp only [step, hkey, if_neg hmem]
      rfl
    · simp only [step, hkey, if_neg hmem]

theorem goesByEquality (h : Remembers seen front kept) (control : Control) {item : Value}
    (hkey : Key.ofValue? item = none) (w : World σ) :
    GoesByEquality (Seen.repeats eq?) (kept.filter fun v => (Key.ofValue? v).isNone) item w
      (.uniq eq? seen) ((Stage.uniq eq? seen).step control item w) := by
  rw [← h.refs]
  constructor
  · simp only [step, hkey, repeatsIn_eq_anyM]
    rcases ((seen.refs.anyM fun earlier => Seen.repeats eq? earlier item).run w).result with
      fault | found
    · rfl
    · cases found <;> rfl
  · simp only [step, hkey, repeatsIn_eq_anyM]
    rcases ((seen.refs.anyM fun earlier => Seen.repeats eq? earlier item).run w).result with
      fault | found
    · rfl
    · cases found <;> rfl
  · intro fault
    simp only [step, hkey]
    rcases ((Seen.repeatsIn eq? item seen.refs).run w).result with last | found
    · exact fun _ => rfl
    · intro hfault
      cases found <;> cases hfault

end Remembers

/-! ### Calls -/

namespace Asks

variable {eq : Equality σ} {earlier item : Value} {rest asked : List Value} {w : World σ}

/-- Nothing is asked after an answer other than no. -/
theorem last (h : ((eq earlier item).run w).result ≠ .ok false) :
    Asks eq (earlier :: rest) item w [earlier] where
  inOrder := List.cons_prefix_cons.mpr ⟨rfl, List.nil_prefix⟩
  unequal := rfl
  all := by
    rw [List.anyM_cons, Act.run_bind]
    rcases hanswer : ((eq earlier item).run w).result with fault | found
    · exact fun hnone => nomatch hnone
    · cases found with
      | true => exact fun hnone => nomatch hnone
      | false => exact absurd hanswer h

theorem cons (h : ((eq earlier item).run w).result = .ok false)
    (hrest : Asks eq rest item ((eq earlier item).run w).world asked) :
    Asks eq (earlier :: rest) item w (earlier :: asked) where
  inOrder := List.cons_prefix_cons.mpr ⟨rfl, hrest.inOrder⟩
  unequal := by
    have hunequal := hrest.unequal
    cases asked with
    | nil => rfl
    | cons next others =>
      rw [List.dropLast_cons_cons, List.anyM_cons, Act.run_bind, h]
      exact hunequal
  all := by
    rw [List.anyM_cons, Act.run_bind, h]
    intro hnone
    rw [hrest.all hnone]

end Asks

/-- The calls of an equality are those for the references asked about. -/
theorem calls_anyM (place : Nat) (eq : Equality σ) (item : Value) (refs : List Value)
    (w : World (Recorded σ)) :
    ∃ asked, Asks eq refs item w.plain asked ∧
      ((refs.anyM fun earlier => recordedPairCallback place eq earlier item).run w).world.calls =
        w.calls ++ asked.map fun earlier => ⟨place, false, [earlier, item]⟩ := by
  induction refs generalizing w with
  | nil => exact ⟨[], ⟨List.prefix_refl _, rfl, fun _ => rfl⟩, (List.append_nil _).symm⟩
  | cons earlier rest ih =>
    rw [List.anyM_cons, Act.run_bind]
    generalize hreply : (recordedPairCallback place eq earlier item).run w = reply
    have hresult : ((eq earlier item).run w.plain).result = reply.result := by
      rw [← hreply]
      rfl
    have hworld : ((eq earlier item).run w.plain).world = reply.world.plain := by
      rw [← hreply]
      rfl
    have hcalls : reply.world.calls = w.calls ++ [⟨place, false, [earlier, item]⟩] := by
      rw [← hreply]
      rfl
    rcases hanswer : reply.result with fault | found
    · refine ⟨[earlier], Asks.last ?_, hcalls⟩
      rw [hresult, hanswer]
      exact fun hno => nomatch hno
    · cases found with
      | true =>
        refine ⟨[earlier], Asks.last ?_, hcalls⟩
        rw [hresult, hanswer]
        exact fun hno => nomatch hno
      | false =>
        obtain ⟨asked, hasks, hrest⟩ := ih reply.world
        rw [← hworld] at hasks
        refine ⟨earlier :: asked, Asks.cons (hresult.trans hanswer) hasks, ?_⟩
        rw [hcalls, List.append_assoc] at hrest
        exact hrest

/-! ### Equalities whose answers depend on their arguments alone -/

section Deterministic

variable {eq? : Option (Equality σ)} {verdict : Value → Value → Except Fault Bool}

theorem result_anyM (h : ∀ v v' w, ((Seen.repeats eq? v v').run w).result = verdict v v')
    (item : Value) (refs : List Value) (w : World σ) :
    ((refs.anyM fun earlier => Seen.repeats eq? earlier item).run w).result =
      refs.anyM (verdict · item) := by
  induction refs generalizing w with
  | nil => rfl
  | cons earlier rest ih =>
    rw [List.anyM_cons, List.anyM_cons, Act.run_bind, h]
    rcases verdict earlier item with fault | found
    · rfl
    · cases found with
      | true => rfl
      | false => exact ih _

/-- None is found if and only if each of them is asked about, and denied. -/
theorem anyM_eq_false_iff {test : Value → Except Fault Bool} {refs : List Value} :
    refs.anyM test = .ok false ↔ ∀ v ∈ refs, test v = .ok false := by
  induction refs with
  | nil => exact iff_of_true rfl (List.forall_mem_nil _)
  | cons first rest ih =>
    rw [List.anyM_cons, List.forall_mem_cons, ← ih]
    rcases test first with fault | found
    · exact iff_of_false nofun (fun h => nomatch h.1)
    · cases found with
      | true => exact iff_of_false nofun (fun h => nomatch h.1)
      | false => exact (and_iff_right rfl).symm

/-- Nothing keeps the element back that was handed on before. -/
def Clear (verdict : Value → Value → Except Fault Bool) (earlier item : Value) : Prop :=
  Key.ofValue? earlier = Key.ofValue? item →
    Key.ofValue? item = none ∧ verdict earlier item = .ok false

theorem Clear.not_repeats {earlier item : Value} (h : Clear verdict earlier item) :
    ¬ Repeats verdict earlier item := by
  rintro ⟨hsame, hverdict⟩
  obtain ⟨hkey, hno⟩ := h hsame
  rw [hverdict hkey] at hno
  cases hno

variable {seen : Seen} {front : List (Arrival σ)} {kept : List Value}

/-- A step hands on its element if and only if nothing that was handed on keeps it back. -/
theorem out_step (h : ∀ v v' w, ((Seen.repeats eq? v v').run w).result = verdict v v')
    (hheld : Holds seen kept) (control : Control) (item : Value) (w : World σ) :
    let out := ((Stage.uniq eq? seen).step control item w).out
    (out = [item] ∧ ∀ v ∈ kept, Clear verdict v item) ∨
      (out = [] ∧ ∃ v ∈ kept, ¬ Clear verdict v item) := by
  intro out
  cases hkey : Key.ofValue? item with
  | some key =>
    by_cases hmem : key ∈ seen.keys
    · right
      obtain ⟨v, hv, hsame⟩ := (hheld.keys key).mp hmem
      refine ⟨?_, v, hv, ?_⟩
      · simp only [out, step, hkey, if_pos hmem, Step.out]
      · intro hclear
        cases hkey.symm.trans (hclear (hsame.trans hkey.symm)).1
    · left
      refine ⟨?_, ?_⟩
      · simp only [out, step, hkey, if_neg hmem, Step.out]
      · intro v hv hsame
        exact absurd ((hheld.keys key).mpr ⟨v, hv, hsame.trans hkey⟩) hmem
  | none =>
    have hresult := result_anyM h item seen.refs w
    have hclear : (∀ v ∈ kept, Clear verdict v item) ↔
        seen.refs.anyM (verdict · item) = .ok false := by
      rw [anyM_eq_false_iff, hheld.refs]
      simp only [List.mem_filter, Option.isNone_iff_eq_none, and_imp, Clear, hkey, true_and]
    rw [← repeatsIn_eq_anyM] at hresult
    simp only [out, step, hkey, hresult]
    have hnot : seen.refs.anyM (verdict · item) ≠ .ok false →
        ∃ v ∈ kept, ¬ Clear verdict v item := by
      intro hverdict
      obtain ⟨v, hv⟩ := Classical.not_forall.mp (mt hclear.mp hverdict)
      obtain ⟨hmem, hnot⟩ := Classical.not_imp.mp hv
      exact ⟨v, hmem, hnot⟩
    cases hverdict : seen.refs.anyM (verdict · item) with
    | error fault => exact Or.inr ⟨rfl, hnot (by simp [hverdict])⟩
    | ok found =>
      cases found with
      | true => exact Or.inr ⟨rfl, hnot (by simp [hverdict])⟩
      | false => exact Or.inl ⟨rfl, hclear.mpr hverdict⟩

/-- What is handed on is taken from the arrivals in their order, and each is clear of those
    before it. -/
theorem passes_clear (h : ∀ v v' w, ((Seen.repeats eq? v v').run w).result = verdict v v')
    (hheld : Remembers seen front kept) (hkept : kept.Pairwise (Clear verdict))
    (arrivals : List (Arrival σ)) :
    ((Stage.uniq eq? seen).passes arrivals).Sublist (arrivals.map Arrival.item) ∧
      (kept ++ (Stage.uniq eq? seen).passes arrivals).Pairwise (Clear verdict) := by
  induction arrivals generalizing seen front kept with
  | nil =>
    rw [passes, List.append_nil]
    exact ⟨List.Sublist.refl _, hkept⟩
  | cons arrival rest ih =>
    obtain ⟨next, hmeet, hnext⟩ := hheld.meet arrival
    rw [passes, hmeet, ← List.append_assoc, List.map_cons]
    rcases out_step h hheld.toHolds {} arrival.item arrival.world with
      ⟨hout, hclear⟩ | ⟨hout, -⟩
    · rw [hout] at hnext ⊢
      have hlonger : (kept ++ [arrival.item]).Pairwise (Clear verdict) := by
        rw [List.pairwise_append]
        refine ⟨hkept, List.pairwise_singleton _ _, ?_⟩
        intro v hv item hitem
        rw [List.mem_singleton.mp hitem]
        exact hclear v hv
      obtain ⟨hsub, hpairs⟩ := ih hnext hlonger
      exact ⟨hsub.cons_cons arrival.item, hpairs⟩
    · rw [hout, List.append_nil] at hnext
      obtain ⟨hsub, hpairs⟩ := ih hnext hkept
      rw [hout, List.append_nil, List.nil_append]
      exact ⟨hsub.cons arrival.item, hpairs⟩

/-- Arrivals that are clear of each other are all handed on. -/
theorem passes_of_clear (h : ∀ v v' w, ((Seen.repeats eq? v v').run w).result = verdict v v')
    (hheld : Remembers seen front kept) (arrivals : List (Arrival σ))
    (hclear : (kept ++ arrivals.map Arrival.item).Pairwise (Clear verdict)) :
    (Stage.uniq eq? seen).passes arrivals = arrivals.map Arrival.item := by
  induction arrivals generalizing seen front kept with
  | nil => rfl
  | cons arrival rest ih =>
    obtain ⟨next, hmeet, hnext⟩ := hheld.meet arrival
    rw [List.map_cons] at hclear
    rcases out_step h hheld.toHolds {} arrival.item arrival.world with
      ⟨hout, -⟩ | ⟨-, v, hv, hnot⟩
    · rw [hout] at hnext
      rw [passes, hmeet, hout, List.map_cons, List.singleton_append]
      rw [← List.singleton_append, ← List.append_assoc] at hclear
      rw [ih hnext hclear]
    · have hbefore := (List.pairwise_append.mp hclear).2.2 v hv arrival.item List.mem_cons_self
      exact absurd hbefore hnot

/-- A reference goes on if and only if all references handed on before are denied. -/
theorem forwards_iff (h : ∀ v v' w, ((Seen.repeats eq? v v').run w).result = verdict v v')
    {refs : List Value} {item : Value} {w : World σ} {before : Stage σ} {s : Step σ}
    (hgoes : GoesByEquality (Seen.repeats eq?) refs item w before s) :
    s.flow = .ok (.forward item) ↔ ∀ v ∈ refs, verdict v item = .ok false := by
  rw [hgoes.flow, result_anyM h, ← anyM_eq_false_iff]
  rcases refs.anyM (verdict · item) with fault | found
  · exact iff_of_false nofun nofun
  · cases found with
    | true => exact iff_of_false nofun nofun
    | false => exact iff_of_true rfl rfl

end Deterministic

/-- A stage that has learnt nothing remembers its arrivals. -/
theorem remembers_after (eq? : Option (Equality σ)) (front : List (Arrival σ)) :
    ∃ seen, (Stage.uniq eq? {}).after front = .uniq eq? seen ∧
      Remembers seen front ((Stage.uniq eq? {}).passes front) := by
  have hempty : Remembers ({} : Seen) ([] : List (Arrival σ)) [] := Remembers.empty
  exact hempty.after front

/-- **Of the elements that repeat each other, the first is handed on.**

    The stage may have an equality of any kind, or none, which is identity; it has met any
    arrivals so far.  If the answers of the equality depend on its arguments alone, what is
    handed on is free of repetitions, and a second stage would hand on the same.

    In a run, these arrivals are what comes through the stages before, and what is handed on is
    what comes to the place behind. -/
theorem uniq_keeps_firsts (eq? : Option (Equality σ)) (front : List (Arrival σ)) :
    let fresh : Stage σ := .uniq eq? {}
    let stage := fresh.after front
    let kept := fresh.passes front
    let refs := kept.filter fun v => (Key.ofValue? v).isNone
    let equality : Equality σ := eq?.getD fun earlier item => pure (earlier.same item)
    (∀ control item w,
      (Key.ofValue? item ≠ none → GoesByKey front item w (stage.step control item w)) ∧
      (Key.ofValue? item = none →
        GoesByEquality equality refs item w stage (stage.step control item w))) ∧
    (∀ eq, eq? = some eq → ∀ place (earlier : List (Arrival (Recorded σ))) control item w,
      let recording : Stage (Recorded σ) := .uniq (some (recordedPairCallback place eq)) {}
      let step := (recording.after earlier).step control item w
      let refs := (recording.passes earlier).filter fun v => (Key.ofValue? v).isNone
      (Key.ofValue? item ≠ none → step.world.calls = w.calls) ∧
      (Key.ofValue? item = none → ∃ asked, Asks eq refs item w.plain asked ∧
        step.world.calls = w.calls ++ asked.map fun earlier => ⟨place, false, [earlier, item]⟩)) ∧
    (∀ verdict, (∀ v v' w, ((equality v v').run w).result = verdict v v') →
      (∀ control item w, Key.ofValue? item = none →
        ((stage.step control item w).flow = .ok (.forward item) ↔
          ∀ v ∈ refs, verdict v item = .ok false)) ∧
      kept.Sublist (front.map Arrival.item) ∧
      kept.Pairwise (fun earlier item => ¬ Repeats verdict earlier item) ∧
      ∀ again, again.map Arrival.item = kept → fresh.passes again = kept) ∧
    ∀ {ρ : Type} (q : Query σ) place seen, q.stages[place]? = some (.uniq eq? seen) →
      ∀ (terminal : Terminal σ ρ) w,
        let line := (q.prepare terminal).line terminal w
        (∀ items,
          (line.after items).stages[place]? = some (fresh.after (line.arrivals place items)) ∧
          (line.arrivals (place + 1) items).map Arrival.item =
            fresh.passes (line.arrivals place items)) ∧
        (q.run terminal w).query.stages[place]? =
          some (fresh.after (line.arrivals place (line.sent q.source))) := by
  intro fresh stage kept refs equality
  obtain ⟨seen, hstage, hheld⟩ := remembers_after eq? front
  have hequality : Seen.repeats eq? = equality := repeats_eq_getD eq?
  refine ⟨?_, ?_, ?_, ?_⟩
  · intro control item w
    simp only [stage, fresh, hstage]
    constructor
    · intro hplain
      obtain ⟨key, hkey⟩ := Option.ne_none_iff_exists'.mp hplain
      exact hheld.goesByKey control hkey w
    · intro hkey
      rw [← hequality]
      exact hheld.goesByEquality control hkey w
  · intro eq _ place earlier control item w recording step refs
    obtain ⟨_, hrecording, hrecorded⟩ :=
      remembers_after (some (recordedPairCallback place eq)) earlier
    simp only [step, recording, hrecording]
    constructor
    · intro hplain
      obtain ⟨key, hkey⟩ := Option.ne_none_iff_exists'.mp hplain
      rw [(hrecorded.goesByKey control hkey w).world]
    · intro hkey
      rw [(hrecorded.goesByEquality control hkey w).world]
      exact calls_anyM place eq item refs w
  · intro verdict hverdict
    rw [← hequality] at hverdict
    have hempty : Remembers ({} : Seen) ([] : List (Arrival σ)) [] := Remembers.empty
    obtain ⟨hsub, hclear⟩ := passes_clear hverdict hempty List.Pairwise.nil front
    refine ⟨?_, hsub, hclear.imp Clear.not_repeats, ?_⟩
    · intro control item w hkey
      simp only [stage, fresh, hstage]
      exact forwards_iff hverdict (hheld.goesByEquality control hkey w)
    · intro again hagain
      have hkept : kept.Pairwise (Clear verdict) := hclear
      rw [← hagain] at hkept ⊢
      exact passes_of_clear hverdict hempty again hkept
  · intro ρ q place seen hplace terminal w line
    have hline : line.stages[place]? = some fresh := by
      simp only [line, Query.line, Query.prepare, List.getElem?_map, hplace]
      rfl
    have hscan : (q.prepare terminal).scan? terminal = none := by
      apply Query.scan?_of_stages
      rintro hnil
      rw [hnil] at hplace
      cases hplace
    refine ⟨?_, ?_⟩
    · intro items
      exact ⟨Line.getElem?_after hline items, Line.arrivals_succ hline rfl items⟩
    · rw [Query.stages_run, Query.traverse_prepare hscan, Line.line_drainUntilStop]
      exact Line.getElem?_after hline _

/-- A stage to which all lists are equal, and which has met two of them. -/
theorem uniq_keeps_firsts_lists :
    let eq : Equality Unit := fun v v' => pure (v.kind = v'.kind)
    let fresh : Stage Unit := .uniq (some eq) {}
    let w : World Unit := ⟨3, ()⟩
    let front : List (Arrival Unit) := [⟨.list 1 [], w⟩, ⟨.null, w⟩, ⟨.list 2 [], w⟩]
    let again : List (Arrival Unit) := [⟨.list 1 [], w⟩, ⟨.null, w⟩]
    let q := (Query.ofSource [.list 1 [], .null] {}).add (.uniqBy eq)
    Key.ofValue? .null ≠ none ∧ Key.ofValue? (.func 0) = none ∧
      GoesByKey front .null w ((fresh.after front).step {} .null w) ∧
      ((fresh.after front).step {} (.func 0) w).flow = .ok (.forward (.func 0)) ∧
      (∃ asked, Asks eq [.list 1 []] (.func 0) w asked ∧
        [Call.mk 0 false [.list 1 [], .func 0]] =
          asked.map fun earlier => ⟨0, false, [earlier, .func 0]⟩) ∧
      again.map Arrival.item = fresh.passes front ∧ fresh.passes again = fresh.passes front ∧
      q.stages[0]? = some fresh ∧
      (q.run (.length 0) w).query.stages[0]? = some (fresh.after again) := by
  intro eq fresh w front again q
  obtain ⟨hstep, hcalls, hsaid, hrun⟩ := uniq_keeps_firsts (some eq) front
  have hplain : Key.ofValue? .null ≠ none := by decide
  have hfunc : Key.ofValue? (.func 0) = none := rfl
  obtain ⟨hforward, -, -, hagain⟩ :=
    hsaid (fun v v' => .ok (v.kind = v'.kind)) (fun _ _ _ => rfl)
  have hkept : again.map Arrival.item = fresh.passes front := rfl
  have hlists : ((fresh.passes front).filter fun v => (Key.ofValue? v).isNone) = [.list 1 []] := rfl
  have hforwarded : ((fresh.after front).step {} (.func 0) w).flow = .ok (.forward (.func 0)) := by
    rw [hforward {} (.func 0) w hfunc, hlists, List.forall_mem_singleton]
    rfl
  have hcalled := (hcalls eq rfl 0 [⟨.list 1 [], w.recorded⟩] {} (.func 0) w.recorded).2 hfunc
  have hplace : q.stages[0]? = some fresh := rfl
  exact ⟨hplain, hfunc, (hstep {} .null w).1 hplain,
    hforwarded, hcalled, hkept, hagain again hkept, hplace,
    (hrun q 0 {} hplace (.length 0) w).2⟩

end Stage

end FusedQuery

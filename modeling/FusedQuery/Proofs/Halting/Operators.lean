/-
  FusedQuery/Proofs/Halting/Operators.lean
  ========================================
  **Where a query halts.**

  A query that is built by operators halts with the first element of its source that meets the
  quota of an operator or of the question, and at the end of the source if none does
  (`halts_at_quota`).  Merging makes no difference to that, so the places are those of the query
  in which nothing is merged; there, each operator has the places of its own stages.

  A slice without an end has no quota, while its stage has a bound that no source is long enough
  to reach (`Quota.Stands`).
-/
import Mathlib.Data.List.Forall2
import Mathlib.Order.Bounds.Defs
import FusedQuery.Proofs.Halting.Position
import FusedQuery.Proofs.Meaning.Operators
import FusedQuery.Proofs.Scan.Agree

namespace FusedQuery

variable {σ ρ : Type}

/-! ### Quotas of operators and of their stages -/

namespace Quota

/-- A stage has the quota that is given, or where none is given, one that nothing reaches. -/
def Stands (given? actual? : Option (Quota σ)) : Prop :=
  actual? = given? ∨
    given? = none ∧ ∃ quota, actual? = some quota ∧ Query.openBound.toNat ≤ quota.number

theorem Stands.refl (quota? : Option (Quota σ)) : Stands quota? quota? := Or.inl rfl

end Quota

namespace Operator

/-- The quotas of the stages that an operator adds where nothing merges. -/
def quotas (operator : Operator σ) : List (Option (Quota σ)) :=
  operator.stages.map fun _ => operator.quota?

theorem stands_slice (start : Int64) (end? : Option Int64) :
    ∀ stage ∈ (slice start end? : Operator σ).stages,
      Quota.Stands (slice start end? : Operator σ).quota? stage.quota? := by
  intro stage hstage
  by_cases hneg : (start < 0 || end?.any (· < 0)) = true
  · simp only [stages, Query.add, Query.addSlice, if_pos hneg] at hstage
    obtain rfl := List.mem_singleton.mp hstage
    simp only [quota?, if_pos hneg]
    exact Quota.Stands.refl _
  · simp only [stages, Query.add, Query.addSlice, if_neg hneg] at hstage
    simp only [quota?, if_neg hneg]
    cases end? with
    | none =>
      split at hstage
      · cases hstage
      · obtain rfl := List.mem_singleton.mp hstage
        exact Or.inr ⟨rfl, _, rfl, Nat.le_refl _⟩
    | some bound =>
      rw [Bool.or_eq_true, not_or, decide_eq_true_iff] at hneg
      have hbound : ¬ bound < 0 := by simpa using hneg.2
      have hto := Int64.toNat_toUInt64_of_le (Int64.not_lt.mp hbound)
      have hstage : stage ∈ [Stage.slice start.toUInt64 bound.toUInt64 0] := by
        simpa [Query.push, Query.ofSource] using hstage
      obtain rfl := List.mem_singleton.mp hstage
      simp only [Stage.quota?, hto]
      exact Quota.Stands.refl _

theorem stands_get (n : Int64) :
    ∀ stage ∈ (get n : Operator σ).stages,
      Quota.Stands (get n : Operator σ).quota? stage.quota? := by
  intro stage hstage
  by_cases hneg : n < 0
  · simp only [stages, Query.add, Query.addGet, if_pos hneg] at hstage
    obtain rfl := List.mem_singleton.mp hstage
    simp only [quota?, if_pos hneg]
    exact Quota.Stands.refl _
  · simp only [stages, Query.add, Query.addGet, if_neg hneg] at hstage
    simp only [quota?, if_neg hneg]
    by_cases hzero : n = 0
    · subst hzero
      obtain rfl := List.mem_singleton.mp hstage
      exact Quota.Stands.refl _
    · rw [if_neg hzero] at hstage
      obtain rfl := List.mem_singleton.mp hstage
      have hn := Int64.toNat_toUInt64_of_le (Int64.not_lt.mp hneg)
      simp only [Stage.quota?, hn]
      exact Quota.Stands.refl _

theorem stands_stages (operator : Operator σ) :
    ∀ stage ∈ operator.stages, Quota.Stands operator.quota? stage.quota? := by
  cases operator with
  | slice start end? => exact stands_slice start end?
  | get n => exact stands_get n
  | _ =>
    intro stage hstage
    obtain rfl := List.mem_singleton.mp hstage
    exact Quota.Stands.refl _

theorem forall₂_quotas (operators : List (Operator σ)) :
    List.Forall₂ Quota.Stands (operators.flatMap quotas)
      ((operators.flatMap stages).map Stage.quota?) := by
  induction operators with
  | nil => exact .nil
  | cons operator rest ih =>
    rw [List.flatMap_cons, List.flatMap_cons, List.map_append]
    apply List.rel_append _ ih
    rw [quotas, List.forall₂_map_left_iff, List.forall₂_map_right_iff, List.forall₂_same]
    exact operator.stands_stages

end Operator

namespace Line

/-- A bound that is not reached may as well not be there. -/
theorem reaches_iff_of_stands {line : Line σ ρ} {given actual : List (Option (Quota σ))}
    (h : List.Forall₂ Quota.Stands given actual) {items : List Value}
    (hsize : items.length < Query.openBound.toNat) :
    line.Reaches given items ↔ line.Reaches actual items := by
  obtain ⟨hlength, hstands⟩ := List.forall₂_iff_get.mp h
  constructor
  · rintro ⟨place, quota, hquota, hnumber⟩
    obtain ⟨hplace, hget⟩ := List.getElem?_eq_some_iff.mp hquota
    have hactual : place < actual.length := hlength ▸ hplace
    rcases hstands place hplace hactual with hsame | ⟨hnone, _⟩
    · refine ⟨place, quota, ?_, hnumber⟩
      exact List.getElem?_eq_some_iff.mpr ⟨hactual, hsame.trans hget⟩
    · cases hnone.symm.trans hget
  · rintro ⟨place, quota, hquota, hnumber⟩
    obtain ⟨hplace, hget⟩ := List.getElem?_eq_some_iff.mp hquota
    have hgiven : place < given.length := hlength ▸ hplace
    rcases hstands place hgiven hplace with hsame | ⟨_, open?, hopen, hbound⟩
    · refine ⟨place, quota, ?_, hnumber⟩
      exact List.getElem?_eq_some_iff.mpr ⟨hgiven, hsame.symm.trans hget⟩
    · obtain rfl := Option.some.inj (hopen.symm.trans hget)
      have hcounted := List.countP_le_length (p := open?.counts) (l := line.arrivals place items)
      have harrived := line.length_arrivals_le place items
      omega

/-- Before the first element, every place that waits has something to wait for. -/
theorem open_reset (stages : List (Stage σ)) (question : Question σ ρ) :
    Open ((stages.map Stage.reset).map Stage.quota? ++ [question.quota?]) := by
  intro place
  cases hplace : ((stages.map Stage.reset).map Stage.quota? ++ [question.quota?])[place]? with
  | none => exact Quota.not_reached_none
  | some quota? =>
    have hmem := List.mem_of_getElem? hplace
    rw [List.map_map] at hmem
    rcases List.mem_append.mp hmem with hstage | hquestion
    · obtain ⟨stage, _, rfl⟩ := List.mem_map.mp hstage
      exact stage.not_reached_reset
    · obtain rfl := List.mem_singleton.mp hquestion
      exact question.not_reached

end Line

/-- Something is met by more and more elements of a source.  The position is that of the first
    element, counted from 1, with which it is met, or of the last if it never is. -/
structure HaltsAt (met : List Value → Prop) (source : List Value) (position : Nat) : Prop where
  first : (∃ p, met (source.take p)) → IsLeast {p | met (source.take p)} position
  last : (¬ ∃ p, met (source.take p)) → position = source.length

theorem HaltsAt.of_bounds {met : List Value → Prop} {source : List Value} {n : Nat}
    (hle : n ≤ source.length) (hbefore : ∀ k < n, ¬ met (source.take k))
    (hhere : n < source.length → met (source.take n)) : HaltsAt met source n := by
  constructor
  · rintro ⟨p, hp⟩
    constructor
    · rcases Nat.lt_or_eq_of_le hle with hlt | heq
      · exact hhere hlt
      · -- All is sent, so `p` elements are all of them as well.
        have hall : n ≤ p := Nat.not_lt.mp fun hlt => hbefore p hlt hp
        rw [List.take_of_length_le (heq ▸ hall)] at hp
        change met (source.take n)
        rw [List.take_of_length_le (Nat.le_of_eq heq.symm)]
        exact hp
    · intro p hp
      exact Nat.not_lt.mp fun hlt => hbefore p hlt hp
  · intro hnever
    rcases Nat.lt_or_eq_of_le hle with hlt | heq
    · exact absurd ⟨n, hhere hlt⟩ hnever
    · exact heq

/-- Where a single place has a quota, for any arrivals, it is their number that counts. -/
theorem Line.reaches_single {line : Line σ ρ} {front : List (Option (Quota σ))}
    (hfront : ∀ quota? ∈ front, quota? = none) {number : Nat} {items : List Value} :
    line.Reaches (front ++ [some (.any number), none]) items ↔
      number ≤ (line.arrivals front.length items).length := by
  have hcount : (line.arrivals front.length items).countP (Quota.any number : Quota σ).counts =
      (line.arrivals front.length items).length :=
    congrFun List.countP_true _
  constructor
  · rintro ⟨place, quota, hquota, hnumber⟩
    rcases Nat.lt_or_ge place front.length with hlt | hge
    · rw [List.getElem?_append_left hlt] at hquota
      cases hfront _ (List.mem_of_getElem? hquota)
    · obtain ⟨behind, rfl⟩ := Nat.exists_eq_add_of_le hge
      rw [List.getElem?_append_right hge, Nat.add_sub_cancel_left] at hquota
      match behind with
      | 0 =>
        obtain rfl := Option.some.inj (Option.some.inj hquota)
        exact hcount ▸ hnumber
      | 1 => cases hquota
      | _ + 2 => cases hquota
  · intro hnumber
    refine ⟨front.length, .any number, ?_, ?_⟩
    · rw [List.getElem?_append_right (Nat.le_refl _), Nat.sub_self]
      rfl
    · rw [hcount]
      exact hnumber

/-- The same for operators without quotas, and a `take` behind them. -/
theorem Line.reaches_taking {line : Line σ ρ} {front : List (Operator σ)} {n : UInt64}
    (hn : 1 ≤ n) (hfront : ∀ op ∈ front, op.quota? = none) {items : List Value} :
    line.Reaches ((front ++ [Operator.take n]).flatMap Operator.quotas ++ [none]) items ↔
      n.toNat ≤ (line.arrivals (front.flatMap Operator.stages).length items).length := by
  have hnone : ∀ quota? ∈ front.flatMap Operator.quotas, quota? = none := by
    intro quota? hmem
    obtain ⟨op, hop, hquota⟩ := List.mem_flatMap.mp hmem
    obtain ⟨_, _, rfl⟩ := List.mem_map.mp hquota
    exact hfront op hop
  have hlength : (front.flatMap Operator.quotas).length =
      (front.flatMap Operator.stages).length := by
    simp only [List.length_flatMap, Operator.quotas, List.length_map]
  have htake : (Operator.take n : Operator σ).quotas = [some (.any n.toNat)] := by
    have hquotas : (Operator.take n : Operator σ).quotas =
        [some (.any (max n.toNat 1))] := rfl
    have hmax : max n.toNat 1 = n.toNat := Nat.max_eq_left (UInt64.le_iff_toNat_le.mp hn)
    rw [hquotas, hmax]
  have hlist : (front ++ [Operator.take n]).flatMap Operator.quotas ++ [none] =
      front.flatMap Operator.quotas ++ [some (.any n.toNat), none] := by
    rw [List.flatMap_append, List.flatMap_cons, List.flatMap_nil, htake, List.append_nil,
      List.append_assoc, List.singleton_append]
  rw [hlist, ← hlength]
  exact reaches_single hnone

namespace Query

/-! ### The line of a query in which nothing is merged -/

/-- Merging makes no difference to how far a run comes. -/
theorem visits_unmerged (q : Query σ) (terminal : Terminal σ ρ) (w : World σ) :
    q.unmerged.visits terminal w = q.visits terminal w := by
  unfold visits
  rw [prepare_unmerged, traverse_unmerged]
  rfl

variable {source : List Value} {settings : Settings} {ops : List (Operator σ)}

theorem stages_prepare_unmerged (source : List Value) (settings : Settings)
    (ops : List (Operator σ)) (terminal : Terminal σ ρ) :
    (((ofSource source settings).addAll ops).unmerged.prepare terminal).stages =
      ops.flatMap Operator.stages := by
  have hfuse : (ofSource source settings : Query σ).unmerged.settings.fuse = false := rfl
  have hreset : (ops.flatMap Operator.stages).map Stage.reset = ops.flatMap Operator.stages := by
    rw [List.map_flatMap]
    exact congrArg (fun f => List.flatMap f ops) (funext reset_stages)
  rw [addAll_unmerged, addAll_eq_append hfuse]
  exact hreset

theorem source_addAll : ((ofSource source settings : Query σ).addAll ops).source = source := by
  have hfuse : (ofSource source settings : Query σ).unmerged.settings.fuse = false := rfl
  have hsource : ((ofSource source settings : Query σ).addAll ops).unmerged.source = source := by
    rw [addAll_unmerged, addAll_eq_append hfuse]
    rfl
  exact hsource

theorem haltsAt_visits (hsize : source.length < Query.openBound.toNat) {question : Question σ ρ}
    {w : World σ} {n : Nat}
    (h : ((ofSource source settings).addAll ops).visits question.start w = .ok n) :
    let q := (ofSource source settings).addAll ops
    let line := (q.unmerged.prepare question.start).line question.start w
    let quotas := ops.flatMap Operator.quotas ++ [question.quota?]
    HaltsAt (line.Reaches quotas) source n := by
  intro q line quotas
  have hquotas : line.quotas =
      (ops.flatMap Operator.stages).map Stage.quota? ++ [question.quota?] := by
    have hstages := stages_prepare_unmerged source settings ops question.start
    unfold Line.quotas
    rw [← hstages, ← question.quota?_start]
    rfl
  have hstands : List.Forall₂ Quota.Stands quotas line.quotas := by
    rw [hquotas]
    exact List.rel_append (Operator.forall₂_quotas ops) (.cons (Quota.Stands.refl _) .nil)
  have hsame : ∀ k, line.Reaches quotas (source.take k) ↔
      line.Reaches line.quotas (source.take k) := by
    intro k
    apply Line.reaches_iff_of_stands hstands
    have htake := List.length_take_le' k source
    omega
  have hopen : Line.Open line.quotas := by
    have hreset := Line.open_reset q.unmerged.stages question
    rw [← question.quota?_start] at hreset
    exact hreset
  have hloop : (line.drainUntilStop 0 source).visited = .ok n := by
    have hsource : q.unmerged.source = source := source_addAll
    rw [← h, ← visits_unmerged, visits_eq_loop, loop, hsource]
  obtain ⟨p, hp, hle, hbefore, hhere⟩ := Line.drainUntilStop_halts rfl hopen hloop
  rw [Nat.zero_add] at hp
  subst hp
  apply HaltsAt.of_bounds hle
  · intro k hk
    rw [hsame]
    exact hbefore k hk
  · intro hlt
    rw [hsame]
    exact hhere hlt

/-- **A run halts with the first element that meets a quota,** and at the end of the source if
    none does.  In a query whose only quota is that of a `take` at its end, this is the element
    by which so many have come through the operators before it.

    The length of the source is bounded because the slice without an end has a bound as well; no
    memory holds a list as long as that. -/
theorem halts_at_quota {source : List Value} (hsize : source.length < 2 ^ 63)
    (settings : Settings) (ops : List (Operator σ)) (question : Question σ ρ) (w : World σ)
    {answer : ρ}
    (hanswer : (((ofSource source settings).addAll ops).ask question w).result = .ok answer) :
    let q := (ofSource source settings).addAll ops
    let line := (q.unmerged.prepare question.start).line question.start w
    let stats := (q.ask question w).query.stats
    HaltsAt (line.Reaches (ops.flatMap Operator.quotas ++ [question.quota?])) source
        stats.visited ∧
      (stats.stoppedEarly = true ↔ stats.visited < source.length) ∧
      ∀ front n, ops = front ++ [.take n] → 1 ≤ n → (∀ op ∈ front, op.quota? = none) →
        question.quota? = none →
        HaltsAt (fun items =>
            n.toNat ≤ (line.arrivals (front.flatMap Operator.stages).length items).length)
          source stats.visited := by
  intro q line stats
  have hvisits := visits_of_result hanswer
  have hopen : source.length < Query.openBound.toNat := Nat.lt_trans hsize (by decide)
  have hhalts := haltsAt_visits hopen hvisits
  refine ⟨hhalts, ?_, ?_⟩
  · have hearly := stoppedEarly_ask hvisits
    rwa [source_addAll] at hearly
  · intro front n hops hn hfront hquestion
    have hmet : line.Reaches (ops.flatMap Operator.quotas ++ [question.quota?]) =
        fun items => n.toNat ≤
          (line.arrivals (front.flatMap Operator.stages).length items).length := by
      funext items
      rw [hops, hquestion]
      exact propext (Line.reaches_taking hn hfront)
    rw [← hmet]
    exact hhalts

/-- The first two flags of a source, taken with its fourth element. -/
theorem halts_at_quota_two :
    let source : List Value := [.null, .bool true, .undefined, .bool false, .bool true]
    let flags : Operator Unit := .ofKind .bool
    let q := (ofSource source {}).addAll [flags, .take 2]
    let line := (q.unmerged.prepare Question.collect.start).line Question.collect.start ⟨0, ()⟩
    source.length < 2 ^ 63 ∧ (q.ask .collect ⟨0, ()⟩).result = .ok [.bool true, .bool false] ∧
      (∀ op ∈ [flags], op.quota? = none) ∧
      HaltsAt (fun items => 2 ≤ (line.arrivals 1 items).length) source
        (q.ask .collect ⟨0, ()⟩).query.stats.visited := by
  intro source flags q line
  have hsize : source.length < 2 ^ 63 := by decide
  have hanswer : (q.ask .collect ⟨0, ()⟩).result = .ok [.bool true, .bool false] := rfl
  have hfront : ∀ op ∈ [flags], op.quota? = none := by
    intro op hop
    obtain rfl := List.mem_singleton.mp hop
    rfl
  have hhalts := halts_at_quota hsize {} [flags, .take 2] .collect ⟨0, ()⟩ hanswer
  exact ⟨hsize, hanswer, hfront, hhalts.2.2 [flags] 2 rfl (by decide) hfront rfl⟩

end Query

end FusedQuery

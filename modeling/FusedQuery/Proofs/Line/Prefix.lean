/-
  FusedQuery/Proofs/Line/Prefix.lean
  ==================================
  **A line sees of a source what comes before its end.**

  Going through a source is going through its beginning and then on through the rest
  (`drainUntilStop_append`).  So whatever ends a traversal cuts the source off there:

    * one that stops early is the traversal of the elements it sent, whatever stands behind them
      (`drainUntilStop_of_take`),
    * one that fails does so in the dispatch of one element (`FailsAt`), and goes the same way
      through every source that agrees up to that one (`FailsAt.of_take`),
    * what the stages emit for the beginning is the beginning of what they emit (`emit_take`).
-/
import Mathlib.Data.List.Induction
import FusedQuery.Proofs.Recording.Mirror
import FusedQuery.Proofs.Stream.Basic

namespace FusedQuery.Line

variable {σ ρ : Type}

/-! ### The beginning of a source, and the rest -/

/-- A traversal that goes on through further elements, unless it has failed. -/
def Traversal.onward (t : Traversal σ ρ) (rest : List Value) : Traversal σ ρ :=
  match t.visited with
  | .ok visited => t.line.drainUntilStop visited rest
  | .error fault => ⟨.error fault, t.line⟩

theorem drainUntilStop_append (line : Line σ ρ) (visited : Nat) (front rest : List Value) :
    line.drainUntilStop visited (front ++ rest) =
      (line.drainUntilStop visited front).onward rest := by
  induction front generalizing line visited with
  | nil => rfl
  | cons item front ih =>
    simp only [List.cons_append, drainUntilStop]
    split
    · next hstop =>
      have hhalted := drainUntilStop_of_stop line.stages hstop line.terminal line.world visited rest
      exact hhalted.symm
    · cases (line.dispatch item).status with
      | error fault => rfl
      | ok _ => exact ih _ _

/-- How far a traversal comes that does not fail: it counts on from where it began, and short of
    the end of the source only a stop can have held it. -/
structure Traversal.Reaches (t : Traversal σ ρ) (visited length n : Nat) : Prop where
  from_start : visited ≤ n
  to_end : n ≤ visited + length
  short : n < visited + length → t.line.control.stop = true

theorem reaches_of_visited {line : Line σ ρ} {visited n : Nat} {source : List Value}
    (h : (line.drainUntilStop visited source).visited = .ok n) :
    (line.drainUntilStop visited source).Reaches visited source.length n := by
  induction source generalizing line visited with
  | nil =>
    obtain rfl := Except.ok.inj h
    exact ⟨Nat.le_refl _, Nat.le_refl _, fun hshort => absurd hshort (Nat.lt_irrefl _)⟩
  | cons item rest ih =>
    simp only [drainUntilStop] at h ⊢
    split at h
    · next hstop =>
      obtain rfl := Except.ok.inj h
      rw [if_pos hstop]
      exact ⟨Nat.le_refl _, Nat.le_add_right _ _, fun _ => hstop⟩
    · next hstop =>
      rw [if_neg hstop]
      cases hstatus : (line.dispatch item).status with
      | error fault =>
        rw [hstatus] at h
        cases h
      | ok _ =>
        rw [hstatus] at h
        obtain ⟨hstart, hend, hshort⟩ := ih h
        rw [List.length_cons]
        constructor
        · omega
        · omega
        · intro hlt
          exact hshort (by omega)

/-- The elements that were sent make up the traversal. -/
theorem drainUntilStop_take {line : Line σ ρ} {visited n : Nat} {source : List Value}
    (h : (line.drainUntilStop visited source).visited = .ok (visited + n)) :
    line.drainUntilStop visited (source.take n) = line.drainUntilStop visited source := by
  induction source generalizing line visited n with
  | nil => rw [List.take_nil]
  | cons item rest ih =>
    cases hstop : line.control.stop with
    | true =>
      rw [drainUntilStop_of_stop line.stages hstop, drainUntilStop_of_stop line.stages hstop]
    | false =>
      simp only [drainUntilStop, hstop, Bool.false_eq_true, ↓reduceIte] at h
      cases hstatus : (line.dispatch item).status with
      | error fault =>
        rw [hstatus] at h
        cases h
      | ok _ =>
        rw [hstatus] at h
        have hsent := (reaches_of_visited h).from_start
        obtain ⟨m, rfl⟩ : ∃ m, n = m + 1 := ⟨n - 1, by omega⟩
        have hnext : visited + (m + 1) = visited + 1 + m := by omega
        rw [hnext] at h
        simp only [List.take_succ_cons, drainUntilStop, hstop, Bool.false_eq_true, ↓reduceIte,
          hstatus]
        exact ih h

/-- **A traversal that stops early knows nothing of what comes behind the elements it sent.** -/
theorem drainUntilStop_of_take {line : Line σ ρ} {n : Nat} {source other : List Value}
    (h : (line.drainUntilStop 0 source).visited = .ok n) (hshort : n < source.length)
    (htake : other.take n = source.take n) :
    line.drainUntilStop 0 other = line.drainUntilStop 0 source := by
  have hstop := (reaches_of_visited h).short (by omega)
  rw [← Nat.zero_add n] at h
  have hfront := drainUntilStop_take h
  rw [← List.take_append_drop n other, drainUntilStop_append, htake, hfront]
  generalize line.drainUntilStop 0 source = t at h hstop
  obtain ⟨visited, last⟩ := t
  subst h
  exact drainUntilStop_of_stop last.stages hstop last.terminal last.world (0 + n) _

/-! ### Where a traversal fails -/

/-- The fault comes up in the dispatch of the element at position `k`: those before it are sent,
    nothing has asked to stop by then, and this one fails. -/
structure FailsAt (line : Line σ ρ) (source : List Value) (k : Nat) (fault : Fault) : Prop where
  sent : (line.drainUntilStop 0 (source.take k)).visited = .ok k
  running : (line.drainUntilStop 0 (source.take k)).line.control.stop = false
  fails : ∃ item, source[k]? = some item ∧
    ((line.drainUntilStop 0 (source.take k)).line.dispatch item).status = .error fault

namespace FailsAt

variable {line : Line σ ρ} {source other : List Value} {k : Nat} {fault : Fault}

/-- Up to the element that fails, and with it, sources have to agree, and no further. -/
theorem of_take (h : line.FailsAt source k fault)
    (htake : other.take (k + 1) = source.take (k + 1)) : line.FailsAt other k fault := by
  have hfront : other.take k = source.take k := by
    have hshorter := congrArg (List.take k) htake
    rwa [List.take_take, List.take_take, Nat.min_eq_left (Nat.le_succ k)] at hshorter
  have hitem : other[k]? = source[k]? := by
    have hlast := congrArg (fun items => items[k]?) htake
    simp only [List.getElem?_take_of_succ] at hlast
    exact hlast
  constructor
  · rw [hfront]
    exact h.sent
  · rw [hfront]
    exact h.running
  · rw [hfront, hitem]
    exact h.fails

theorem visited_take (h : line.FailsAt source k fault) :
    (line.drainUntilStop 0 (source.take (k + 1))).visited = .error fault := by
  obtain ⟨hsent, hrunning, item, hitem, hfails⟩ := h
  have hfront : source.take (k + 1) = source.take k ++ [item] := by
    rw [List.take_add_one, hitem, Option.toList_some]
  rw [hfront, drainUntilStop_append, Traversal.onward, hsent]
  simp only [drainUntilStop, hrunning, Bool.false_eq_true, ↓reduceIte, hfails]

/-- The traversal is over with the element that fails. -/
theorem drainUntilStop_eq (h : line.FailsAt source k fault) :
    line.drainUntilStop 0 source = line.drainUntilStop 0 (source.take (k + 1)) := by
  have hfailed := h.visited_take
  have hsplit := drainUntilStop_append line 0 (source.take (k + 1)) (source.drop (k + 1))
  rw [List.take_append_drop] at hsplit
  rw [hsplit]
  generalize line.drainUntilStop 0 (source.take (k + 1)) = t at hfailed
  obtain ⟨visited, last⟩ := t
  subst hfailed
  rfl

end FailsAt

/-- A traversal that fails does so at one of the elements. -/
theorem exists_failsAt {line : Line σ ρ} {source : List Value} {fault : Fault}
    (h : (line.drainUntilStop 0 source).visited = .error fault) :
    ∃ k, line.FailsAt source k fault := by
  induction source using List.reverseRecOn with
  | nil => cases h
  | append_singleton front item ih =>
    rw [drainUntilStop_append] at h
    cases hfront : (line.drainUntilStop 0 front).visited with
    | error earlier =>
      simp only [Traversal.onward, hfront] at h
      obtain rfl := Except.error.inj h
      obtain ⟨k, hk⟩ := ih hfront
      refine ⟨k, hk.of_take ?_⟩
      obtain ⟨_, _, _, hitem, _⟩ := hk
      have hlt := (List.getElem?_eq_some_iff.mp hitem).1
      rw [List.take_append_of_le_length (by omega)]
    | ok n =>
      obtain ⟨_, hend, hshort⟩ := reaches_of_visited hfront
      simp only [Traversal.onward, hfront, drainUntilStop] at h
      cases hstop : (line.drainUntilStop 0 front).line.control.stop with
      | true =>
        rw [hstop, if_pos rfl] at h
        cases h
      | false =>
        rw [hstop, if_neg Bool.false_ne_true] at h
        have hall : n = front.length := by
          by_contra hne
          rw [hshort (by omega)] at hstop
          cases hstop
        have htake : (front ++ [item]).take front.length = front := List.take_left
        refine ⟨front.length, ?_, ?_, item, List.getElem?_concat_length, ?_⟩
        · rw [htake, hfront, hall]
        · rw [htake, hstop]
        · rw [htake]
          cases hstatus : ((line.drainUntilStop 0 front).line.dispatch item).status with
          | error last =>
            rw [hstatus] at h
            rw [Except.error.inj h]
          | ok _ =>
            rw [hstatus] at h
            cases h

theorem Mirrors.failsAt {recording : Line (Recorded σ) ρ} {line : Line σ ρ}
    (h : recording.Mirrors line) {source : List Value} {k : Nat} {fault : Fault}
    (hfails : line.FailsAt source k fault) : recording.FailsAt source k fault := by
  have htaken := drainUntilStop_mirrors h 0 (source.take k)
  obtain ⟨hsent, hrunning, item, hitem, hstatus⟩ := hfails
  refine ⟨htaken.visited.trans hsent, ?_, item, hitem, ?_⟩
  · rw [htaken.line.control, hrunning]
  · rw [(dispatch_mirrors htaken.line item).status, hstatus]

/-! ### What the stages emit -/

/-- If the stages get through a source, they get through its beginning, and have emitted the
    beginning of what they emit for the whole. -/
theorem emit_take {stages : List (Stage σ)} {control : Control} {w : World σ}
    {source : List Value} (h : (emit stages control w source).fault? = none) (k : Nat) :
    (emit stages control w (source.take k)).fault? = none ∧
      (emit stages control w (source.take k)).items <+:
        (emit stages control w source).items := by
  induction source generalizing stages control w k with
  | nil =>
    rw [List.take_nil]
    exact ⟨h, List.prefix_refl _⟩
  | cons item rest ih =>
    cases k with
    | zero => exact ⟨rfl, List.nil_prefix⟩
    | succ k =>
      cases hstop : control.stop with
      | true =>
        rw [emit_of_stop hstop, emit_of_stop hstop]
        exact ⟨rfl, List.prefix_refl _⟩
      | false =>
        simp only [emit, hstop, Bool.false_eq_true, ↓reduceIte, List.take_succ_cons] at h ⊢
        generalize transit control item w stages = t at h ⊢
        cases hflow : t.flow with
        | error fault =>
          rw [hflow] at h
          cases h
        | ok flow =>
          rw [hflow] at h
          obtain ⟨hfault, hitems⟩ := ih h k
          exact ⟨hfault, (List.prefix_append_right_inj _).mpr hitems⟩

end FusedQuery.Line

/-
  FusedQuery/Proofs/Zip/Pairs.lean
  ================================
  **Pairing goes by the order of arrival and makes new lists.**

  A stage that pairs hands on every element that reaches it: the `k`-th in a list with the
  `k`-th of the other list, or with `undefined` where that has ended (`arrivals_zip`).  It
  counts what reaches it, not what the source holds, and starts anew in every run.

  Each list is made in a turn of its own, so its identity is none that existed before the run
  and none that anything else makes in it (`makesAnew_of_zip`).  Hence no two of the lists are
  the same: leaving out repetitions leaves out none of them (`arrivals_uniq_of_zip`), and what
  existed before is not found among them (`not_same_behind_zip`).
-/
import FusedQuery.Proofs.Line.Turns
import FusedQuery.Proofs.Uniq.Firsts
import Mathlib.Algebra.Group.Nat.Defs

namespace FusedQuery

variable {σ ρ : Type}

theorem Value.list_same_eq_false {ref : Ref} {v : Value} (h : ref ∉ v.ref?)
    (items : List Value) : (Value.list ref items).same v = false := by
  cases v with
  | list other content =>
    apply decide_eq_false
    rintro rfl
    exact h rfl
  | _ => rfl

/-! ### By the order of arrival -/

/-- What a pairing stage hands on of its `k`-th arrival. -/
def Arrival.paired (arrival : Arrival σ) (other : List Value) (k : Nat) : Arrival σ where
  item := .list arrival.world.supply [arrival.item, (other[k]?).getD .undefined]
  world := { arrival.world with supply := arrival.world.supply + 1 }

namespace Stage

theorem zip_after (other : List Value) (pos : UInt64) (arrivals : List (Arrival σ)) :
    (Stage.zip other pos).after arrivals = .zip other (pos + UInt64.ofNat arrivals.length) := by
  induction arrivals generalizing pos with
  | nil => exact congrArg (Stage.zip other) (UInt64.add_zero pos).symm
  | cons arrival rest ih =>
    have hnext := ih (pos + 1)
    have hcount : pos + 1 + UInt64.ofNat rest.length = pos + UInt64.ofNat (rest.length + 1) := by
      rw [UInt64.ofNat_add, UInt64.add_assoc, UInt64.add_comm 1]
      rfl
    rw [hcount] at hnext
    exact hnext

end Stage

namespace Line

variable {line : Line σ ρ} {place : Nat} {other : List Value} {pos : UInt64}

/-- Nothing is dropped. -/
theorem arrival?_zip (h : line.stages[place]? = some (.zip other pos)) (item : Value) :
    line.arrival? item (place + 1) =
      (line.arrival? item place).map fun arrival => arrival.paired other pos.toNat := by
  have htake : line.stages.take (place + 1) = line.stages.take place ++ [.zip other pos] := by
    rw [List.take_add_one, h, Option.toList_some]
  rw [arrival?, arrival?, htake, transit_append]
  generalize transit line.control item line.world (line.stages.take place) = t
  unfold Transit.onward Transit.arrival?
  rcases t.flow with fault | flow
  · rfl
  · cases flow with
    | drop => rfl
    | forward next => rfl

theorem zip_dispatch (h : line.stages[place]? = some (.zip other pos)) (item : Value) :
    (line.dispatch item).line.stages[place]? =
      some (.zip other (pos + UInt64.ofNat (line.arrival? item place).toList.length)) := by
  rw [stages_dispatch, getElem?_transit h, Stage.zip_after]
  rfl

/-- **The `k`-th arrival is paired with the `k`-th of the other list,** counted on from what
    arrived before.  By induction on the elements sent. -/
theorem arrivals_zip (h : line.stages[place]? = some (.zip other pos)) {items : List Value}
    (hroom : pos.toNat + items.length < 2 ^ 64) :
    line.arrivals (place + 1) items =
      (line.arrivals place items).mapIdx fun k arrival =>
        arrival.paired other (pos.toNat + k) := by
  induction items generalizing line pos with
  | nil => rfl
  | cons item rest ih =>
    rw [List.length_cons] at hroom
    have hnext := zip_dispatch h item
    rw [arrivals, arrivals, arrival?_zip h]
    cases harrival : line.arrival? item place with
    | none =>
      have hsame : pos + UInt64.ofNat (Option.toList (none : Option (Arrival σ))).length = pos :=
        UInt64.add_zero pos
      rw [harrival, hsame] at hnext
      exact ih hnext (by omega)
    | some arrival =>
      have hone : pos + UInt64.ofNat [arrival].length = pos + 1 := rfl
      have hfits : pos.toNat + 1 < 2 ^ 64 := by omega
      have hcount : (pos + 1).toNat = pos.toNat + 1 := by
        rw [UInt64.toNat_add]
        exact Nat.mod_eq_of_lt hfits
      rw [harrival, Option.toList_some, hone] at hnext
      rw [ih hnext (by omega), hcount, Option.map_some, Option.toList_some, Option.toList_some,
        List.singleton_append, List.singleton_append, List.mapIdx_cons]
      simp only [Nat.add_zero, Nat.add_assoc, Nat.add_comm 1]

/-- How a pairing stage deals with what reaches it. -/
structure PairsUp (line : Line σ ρ) (place : Nat) (other : List Value) (items : List Value) :
    Prop where
  pairs : line.arrivals (place + 1) items =
    (line.arrivals place items).mapIdx fun k arrival => arrival.paired other k
  counts : (line.after items).stages[place]? =
    some (.zip other (UInt64.ofNat (line.arrivals place items).length))

theorem pairsUp_of_zip (h : line.stages[place]? = some (.zip other 0)) {items : List Value}
    (hroom : items.length < 2 ^ 64) : line.PairsUp place other items := by
  constructor
  case pairs =>
    have hfits : UInt64.toNat 0 + items.length < 2 ^ 64 := by
      rwa [UInt64.toNat_zero, Nat.zero_add]
    have hpairs := arrivals_zip h hfits
    simpa only [UInt64.toNat_zero, Nat.zero_add] using hpairs
  case counts =>
    rw [getElem?_after h, Stage.zip_after, UInt64.zero_add]

/-! ### New lists -/

/-- Each list has the identity that was next when its element arrived. -/
theorem ref?_arrivals_zip (h : line.stages[place]? = some (.zip other 0)) {items : List Value}
    (hroom : items.length < 2 ^ 64) :
    (line.arrivals (place + 1) items).map (fun arrival => arrival.item.ref?) =
      (line.arrivals place items).map fun arrival => some arrival.world.supply := by
  rw [(pairsUp_of_zip h hroom).pairs]
  apply List.ext_getElem?
  intro k
  simp only [List.getElem?_map, List.getElem?_mapIdx, Option.map_map]
  rfl

/-- The lists that a pairing stage makes are new. -/
structure MakesAnew (line : Line σ ρ) (place : Nat) (items : List Value) : Prop where
  -- Each is made in a turn of the stage, and nothing else is.
  made : (line.arrivals (place + 1) items).map (fun arrival => arrival.item.ref?) =
    ((line.turns items).filter fun turn => turn.place = place).map fun turn => some turn.before
  alone {turn : Turn} {ref : Ref} : turn ∈ line.turns items → turn.place = place →
    (turn.Makes ref ↔ ref = turn.before)
  -- No turn makes what there was before the run, or what another turn makes.
  unused {turn : Turn} {ref : Ref} : turn ∈ line.turns items → turn.Makes ref →
    line.world.supply ≤ ref
  own {i j : Nat} {turn another : Turn} {ref : Ref} : i ≠ j →
    (line.turns items)[i]? = some turn → (line.turns items)[j]? = some another →
    turn.Makes ref → ¬ another.Makes ref

/-- A turn of a pairing stage takes one identity. -/
theorem after_eq_of_zip (h : line.stages[place]? = some (.zip other pos)) {items : List Value}
    {turn : Turn} (hmem : turn ∈ line.turns items) (hplace : turn.place = place) :
    turn.after = turn.before + 1 := by
  rw [← hplace] at h
  obtain ⟨arrivals, control, item, w, hbefore, hafter⟩ := turn_is_step hmem h
  rw [hbefore, hafter, Stage.zip_after]
  rfl

theorem place_le_of_getElem? {stage : Stage σ} (h : line.stages[place]? = some stage) :
    place ≤ line.stages.length := by
  obtain ⟨hlt, _⟩ := List.getElem?_eq_some_iff.mp h
  exact Nat.le_of_lt hlt

theorem makesAnew_of_zip (h : line.stages[place]? = some (.zip other 0)) {items : List Value}
    (hroom : items.length < 2 ^ 64) : line.MakesAnew place items := by
  have horder := line.inOrder_turns items
  constructor
  case made =>
    have hturns := turns_at (place_le_of_getElem? h) items
    have hsome := congrArg (List.map some) hturns
    rw [List.map_map, List.map_map] at hsome
    exact (ref?_arrivals_zip h hroom).trans hsome.symm
  case alone =>
    intro turn ref hmem hplace
    have hafter := after_eq_of_zip h hmem hplace
    unfold Turn.Makes
    rw [hafter]
    constructor
    · rintro ⟨hle, hlt⟩
      exact Nat.le_antisymm (Nat.le_of_lt_succ hlt) hle
    · rintro rfl
      exact ⟨Nat.le_refl _, Nat.lt_succ_self _⟩
  case unused =>
    intro turn ref hmem hmakes
    exact Nat.le_trans (horder.bounds turn hmem).1 hmakes.1
  case own =>
    intro i j turn another ref hij hturn hanother hmakes
    exact horder.not_makes hij hturn hanother hmakes

/-- The identities of the arrivals go up. -/
theorem supply_lt_of_zip (h : line.stages[place]? = some (.zip other 0)) (items : List Value) :
    (line.arrivals place items).Pairwise fun earlier later =>
      earlier.world.supply < later.world.supply := by
  have hturns := turns_at (place_le_of_getElem? h) items
  have hapart : ((line.turns items).filter fun turn => turn.place = place).Pairwise
      fun earlier later => earlier.before < later.before := by
    refine ((line.inOrder_turns items).apart.filter _).imp_of_mem ?_
    intro earlier later hearlier _ hle
    obtain ⟨hmem, hplace⟩ := List.mem_filter.mp hearlier
    have hafter := after_eq_of_zip h hmem (of_decide_eq_true hplace)
    rw [hafter] at hle
    exact hle
  have hmap := List.pairwise_map.mpr hapart
  rw [hturns] at hmap
  exact List.pairwise_map.mp hmap

theorem supply_le_of_mem_arrivals (h : place ≤ line.stages.length) {items : List Value}
    {arrival : Arrival σ} (hmem : arrival ∈ line.arrivals place items) :
    line.world.supply ≤ arrival.world.supply := by
  have hsupply : arrival.world.supply ∈
      (line.arrivals place items).map fun arrival => arrival.world.supply :=
    List.mem_map_of_mem hmem
  rw [← turns_at h items] at hsupply
  obtain ⟨turn, hturn, hbefore⟩ := List.mem_map.mp hsupply
  rw [← hbefore]
  exact ((line.inOrder_turns items).bounds turn (List.mem_filter.mp hturn).1).1

/-- What existed before the elements were sent is not among the lists. -/
theorem not_same_of_zip (h : line.stages[place]? = some (.zip other 0)) {items : List Value}
    (hroom : items.length < 2 ^ 64) {v : Value} (hold : ∀ ref ∈ v.ref?, ref < line.world.supply)
    {arrival : Arrival σ} (hmem : arrival ∈ line.arrivals (place + 1) items) :
    arrival.item.same v = false := by
  rw [(pairsUp_of_zip h hroom).pairs] at hmem
  obtain ⟨k, hk, rfl⟩ := List.mem_mapIdx.mp hmem
  have hle := supply_le_of_mem_arrivals (place_le_of_getElem? h) (List.getElem_mem hk)
  apply Value.list_same_eq_false
  intro hold'
  exact Nat.not_lt_of_le hle (hold _ hold')

theorem lists_apart_of_zip (h : line.stages[place]? = some (.zip other 0)) {items : List Value}
    (hroom : items.length < 2 ^ 64) :
    ((line.arrivals (place + 1) items).map Arrival.item).Pairwise
      (Stage.Clear fun v v' => .ok (v.same v')) := by
  have hapart := List.pairwise_iff_getElem.mp (supply_lt_of_zip h items)
  rw [(pairsUp_of_zip h hroom).pairs, List.pairwise_map, List.pairwise_iff_getElem]
  intro i j hi hj hij
  rw [List.length_mapIdx] at hi hj
  have hlt := hapart i j hi hj hij
  simp only [List.getElem_mapIdx, Arrival.paired]
  intro _
  refine ⟨rfl, ?_⟩
  exact congrArg Except.ok (decide_eq_false (Nat.ne_of_lt hlt))

/-- **Leaving out repetitions directly behind leaves out none of the lists.** -/
theorem arrivals_uniq_of_zip (h : line.stages[place]? = some (.zip other 0))
    (huniq : line.stages[place + 1]? = some (.uniq none {})) {items : List Value}
    (hroom : items.length < 2 ^ 64) :
    (line.arrivals (place + 2) items).map Arrival.item =
      (line.arrivals (place + 1) items).map Arrival.item := by
  have hverdict : ∀ (v v' : Value) (w : World σ),
      ((Seen.repeats none v v').run w).result = .ok (v.same v') := fun _ _ _ => rfl
  rw [arrivals_succ huniq rfl]
  exact Stage.passes_of_clear hverdict Stage.Remembers.empty _ (lists_apart_of_zip h hroom)

end Line

/-! ### Searches -/

namespace Terminal

variable {v : Value} {arrivals : List (Arrival σ)}

theorem after_contains (h : ∀ arrival ∈ arrivals, arrival.item.same v = false) (found : Bool) :
    (Terminal.contains (.value v) found : Terminal σ Bool).after arrivals =
      .contains (.value v) found := by
  induction arrivals with
  | nil => rfl
  | cons arrival rest ih =>
    obtain ⟨hfirst, hrest⟩ := List.forall_mem_cons.mp h
    have hmeet : (Terminal.contains (.value v) found : Terminal σ Bool).meet arrival =
        .contains (.value v) found := by
      simp only [meet, accept, Target.holds, Act.run_pure, hfirst]
    rw [after, List.foldl_cons, hmeet]
    exact ih hrest

theorem after_indexOf (h : ∀ arrival ∈ arrivals, arrival.item.same v = false) (pos : UInt64)
    (found? : Option UInt64) :
    ∃ last, (Terminal.indexOf (.value v) pos found? : Terminal σ Int64).after arrivals =
      .indexOf (.value v) last found? := by
  induction arrivals generalizing pos with
  | nil => exact ⟨pos, rfl⟩
  | cons arrival rest ih =>
    obtain ⟨hfirst, hrest⟩ := List.forall_mem_cons.mp h
    have hmeet : (Terminal.indexOf (.value v) pos found? : Terminal σ Int64).meet arrival =
        .indexOf (.value v) (pos + 1) found? := by
      simp only [meet, accept, Target.holds, Act.run_pure, hfirst]
    rw [after, List.foldl_cons, hmeet]
    exact ih hrest (pos + 1)

end Terminal

namespace Query

variable {q : Query σ} {question : Question σ ρ} {w : World σ}

/-- A run that gets through answers with what its terminal has come to. -/
theorem result_of_finish {answer : ρ} :
    let line := (q.prepare question.start).line question.start w
    (line.after (line.sent q.source)).terminal.finish = .ok answer →
      (q.ask question w).result = (q.visits question.start w).map fun _ => answer := by
  intro line h
  have hloop : (q.loop question.start w).line = line.after (line.sent q.source) :=
    Line.line_drainUntilStop line 0 q.source
  rw [(q.ask_loop question w).result, hloop, h, visits_eq_loop]
  cases (q.loop question.start w).visited <;> rfl

section Zip

variable {place : Nat} {other : List Value} {pos : UInt64}

theorem line_prepare_zip (h : q.stages[place]? = some (.zip other pos)) (question : Question σ ρ)
    (w : World σ) :
    ((q.prepare question.start).line question.start w).stages[place]? = some (.zip other 0) := by
  simp only [line, prepare, List.getElem?_map, h]
  rfl

/-- What existed before the run is not found directly behind. -/
theorem not_same_behind_zip (question : Question σ ρ)
    (h : q.stages[place]? = some (.zip other pos))
    (hlast : q.stages.length = place + 1) (hsource : q.source.length < 2 ^ 64) {v : Value}
    (hold : ∀ ref ∈ v.ref?, ref < w.supply) :
    let line := (q.prepare question.start).line question.start w
    ∀ arrival ∈ line.arrivals line.stages.length (line.sent q.source),
      arrival.item.same v = false := by
  intro line
  have hline := line_prepare_zip h question w
  have hsent := (line.prefix_sent q.source).length_le
  have hlength : line.stages.length = place + 1 := (List.length_map _).trans hlast
  rw [hlength]
  intro arrival hmem
  exact Line.not_same_of_zip hline (Nat.lt_of_le_of_lt hsent hsource) hold hmem

theorem result_contains_of_zip (h : q.stages[place]? = some (.zip other pos))
    (hlast : q.stages.length = place + 1) (hsource : q.source.length < 2 ^ 64) {v : Value}
    (hold : ∀ ref ∈ v.ref?, ref < w.supply) :
    let question : Question σ Bool := .contains (.value v)
    (q.ask question w).result = (q.visits question.start w).map fun _ => false := by
  intro question
  apply result_of_finish
  rw [Line.terminal_after]
  have hnone := not_same_behind_zip question h hlast hsource hold
  exact congrArg Terminal.finish (Terminal.after_contains hnone false)

theorem result_indexOf_of_zip (h : q.stages[place]? = some (.zip other pos))
    (hlast : q.stages.length = place + 1) (hsource : q.source.length < 2 ^ 64) {v : Value}
    (hold : ∀ ref ∈ v.ref?, ref < w.supply) :
    let question : Question σ Int64 := .indexOf (.value v)
    (q.ask question w).result = (q.visits question.start w).map fun _ => -1 := by
  intro question
  apply result_of_finish
  rw [Line.terminal_after]
  have hnone := not_same_behind_zip question h hlast hsource hold
  obtain ⟨last, hafter⟩ := Terminal.after_indexOf hnone 0 none
  exact congrArg Terminal.finish hafter

/-- **Pairing goes by the order of arrival and makes new lists,** whatever the runs before have
    left in the stages, and whether or not they failed. -/
theorem zip_pairs_arrivals_anew (q : Query σ) (question : Question σ ρ) (w : World σ)
    (h : q.stages[place]? = some (.zip other pos)) (hsource : q.source.length < 2 ^ 64) :
    let line := (q.prepare question.start).line question.start w
    let sent := line.sent q.source
    line.PairsUp place other sent ∧
      (q.ask question w).query.stages[place]? =
        some (.zip other (UInt64.ofNat (line.arrivals place sent).length)) ∧
      line.MakesAnew place sent ∧
      (∀ seen, q.stages[place + 1]? = some (.uniq none seen) →
        (line.arrivals (place + 2) sent).map Arrival.item =
          (line.arrivals (place + 1) sent).map Arrival.item) ∧
      (q.stages.length = place + 1 → ∀ v : Value, (∀ ref ∈ v.ref?, ref < w.supply) →
        let contains : Question σ Bool := .contains (.value v)
        let indexOf : Question σ Int64 := .indexOf (.value v)
        (q.ask contains w).result = (q.visits contains.start w).map (fun _ => false) ∧
          (q.ask indexOf w).result = (q.visits indexOf.start w).map fun _ => -1) := by
  intro line sent
  have hline := line_prepare_zip h question w
  have hroom : sent.length < 2 ^ 64 :=
    Nat.lt_of_le_of_lt (line.prefix_sent q.source).length_le hsource
  have hpairs := Line.pairsUp_of_zip hline hroom
  refine ⟨hpairs, ?_, Line.makesAnew_of_zip hline hroom, ?_, ?_⟩
  · have hloop : (q.loop question.start w).line = line.after sent :=
      Line.line_drainUntilStop line 0 q.source
    rw [(q.ask_loop question w).stages, hloop]
    exact hpairs.counts
  · intro seen huniq
    have hbehind : line.stages[place + 1]? = some (.uniq none {}) := by
      simp only [line, Query.line, prepare, List.getElem?_map, huniq]
      rfl
    exact Line.arrivals_uniq_of_zip hline hbehind hroom
  · intro hlast v hold contains indexOf
    exact ⟨result_contains_of_zip h hlast hsource hold, result_indexOf_of_zip h hlast hsource hold⟩

/-- A list that is there before the run, and comes to the stage, which has counted before. -/
theorem zip_pairs_arrivals_anew_old :
    let old : Value := .list 0 []
    let q : Query Unit := { source := [.null, old, old], stages := [.skip 1, .zip [.null] 7] }
    let w : World Unit := ⟨1, ()⟩
    let all : Question Unit (List Value) := .collect
    let contains : Question Unit Bool := .contains (.value old)
    q.stages[1]? = some (.zip [.null] 7) ∧ q.source.length < 2 ^ 64 ∧
      (q.ask all w).result = .ok [.list 1 [old, .null], .list 2 [old, .undefined]] ∧
      (q.ask all w).query.stages[1]? = some (.zip [.null] 2) ∧
      q.visits contains.start w = .ok 3 ∧ (q.ask contains w).result = .ok false := by
  intro old q w all contains
  have hplace : q.stages[1]? = some (.zip [.null] 7) := rfl
  have hsource : q.source.length < 2 ^ 64 := by decide
  have hold : ∀ ref ∈ old.ref?, ref < w.supply := by
    intro ref href
    obtain rfl := Option.some.inj href
    exact Nat.zero_lt_one
  have hzip := q.zip_pairs_arrivals_anew all w hplace hsource
  have hvisits : q.visits contains.start w = .ok 3 := rfl
  have hcontains := (hzip.2.2.2.2 rfl old hold).1
  rw [hvisits] at hcontains
  exact ⟨hplace, hsource, rfl, hzip.2.1, hvisits, hcontains⟩

end Zip

end Query

end FusedQuery

/-
  FusedQuery/Proofs/Group/Partition.lean
  ======================================
  **Grouping partitions what a query delivers.**

  The groups that come of adding elements one by one are those of a list of elements with their
  keys: one group for each key, in the order in which the keys first appear, and in it the
  elements of that key in their order (`foldl_add`, `Groups.Partitions`).

  Grouping a query adds what is delivered, in the world in which each element arrives.  It
  succeeds if every element has a key and no stage fails, and otherwise ends with the first
  element that has none, which is the last that its callback sees (`groupBy_partitions`).
-/
import Mathlib.Data.List.Induction
import Mathlib.Data.List.Nodup
import FusedQuery.Proofs.Key.Identity
import FusedQuery.Proofs.Query.Folding

namespace FusedQuery

variable {σ : Type}

namespace Groups

/-- The elements of a key, in their order. -/
def members (keyed : List (Key × Value)) (key : Key) : List Value :=
  (keyed.filter fun pair => pair.1 = key).map Prod.snd

/-- The groups are those of the elements, each given with its key.  A list with its duplicates
    erased keeps the first of each. -/
structure Partitions (groups : Groups) (keyed : List (Key × Value)) : Prop where
  keys : groups.map Prod.fst = (keyed.map Prod.fst).eraseDups
  distinct : (groups.map Prod.fst).Nodup
  members {key : Key} {items : List Value} :
    (key, items) ∈ groups → items = Groups.members keyed key ∧ items ≠ []
  all : (groups.flatMap Prod.snd).Perm (keyed.map Prod.snd)

/-- The groups of elements with their keys. -/
def ofKeyed (keyed : List (Key × Value)) : Groups :=
  (keyed.map Prod.fst).eraseDups.map fun key => (key, members keyed key)

/-! ### Adding one element -/

theorem nodup_eraseDups {α : Type} [DecidableEq α] (xs : List α) : xs.eraseDups.Nodup := by
  induction xs using List.reverseRecOn with
  | nil => exact List.nodup_nil
  | append_singleton front x ih =>
    rw [eraseDups_concat]
    split
    · exact ih
    · next hnew =>
      rw [← List.concat_eq_append]
      exact List.Nodup.concat (mt List.mem_eraseDups.mp hnew) ih

theorem members_concat (keyed : List (Key × Value)) (k : Key) (v : Value) (key : Key) :
    members (keyed ++ [(k, v)]) key = members keyed key ++ if key = k then [v] else [] := by
  rw [members, members, List.filter_append, List.map_append, List.filter_singleton,
    Bool.cond_decide]
  by_cases h : key = k
  · rw [if_pos h, if_pos h.symm, List.map_singleton]
  · rw [if_neg h, if_neg (Ne.symm h), List.map_nil]

theorem members_eq_nil {keyed : List (Key × Value)} {key : Key} (h : key ∉ keyed.map Prod.fst) :
    members keyed key = [] := by
  rw [members, List.map_eq_nil_iff, List.filter_eq_nil_iff]
  intro pair hmem hkey
  apply h
  rw [← of_decide_eq_true hkey]
  exact List.mem_map_of_mem hmem

/-- A group gets one more element, or there is a new one. -/
theorem add_map {keys : List Key} (hnodup : keys.Nodup) (f : Key → List Value) {k : Key}
    (hnew : k ∉ keys → f k = []) (v : Value) :
    add k v (keys.map fun key => (key, f key)) =
      (if k ∈ keys then keys else keys ++ [k]).map fun key =>
        (key, f key ++ if key = k then [v] else []) := by
  induction keys with
  | nil => simp [add, hnew]
  | cons key rest ih =>
    obtain ⟨hnot, hrest⟩ := List.nodup_cons.mp hnodup
    by_cases hkey : key = k
    · subst hkey
      have hothers : ∀ other ∈ rest, (other, f other) =
          (other, f other ++ if other = key then [v] else []) := by
        intro other hother
        have hne : other ≠ key := by
          rintro rfl
          exact hnot hother
        rw [if_neg hne, List.append_nil]
      rw [if_pos List.mem_cons_self, List.map_cons, List.map_cons, add, if_pos rfl, if_pos rfl,
        List.map_congr_left hothers]
    · have hmem : k ∈ key :: rest ↔ k ∈ rest := by
        rw [List.mem_cons, or_iff_right (Ne.symm hkey)]
      have hlater := ih hrest fun hk => hnew (mt hmem.mp hk)
      rw [List.map_cons, add, if_neg hkey, hlater]
      by_cases hk : k ∈ rest
      · rw [if_pos hk, if_pos (hmem.mpr hk), List.map_cons, if_neg hkey, List.append_nil]
      · rw [if_neg hk, if_neg (mt hmem.mp hk), List.cons_append, List.map_cons, if_neg hkey,
          List.append_nil]

theorem add_ofKeyed (keyed : List (Key × Value)) (k : Key) (v : Value) :
    add k v (ofKeyed keyed) = ofKeyed (keyed ++ [(k, v)]) := by
  have hkeys := eraseDups_concat (keyed.map Prod.fst) k
  have hnew : k ∉ (keyed.map Prod.fst).eraseDups → members keyed k = [] := by
    intro hk
    exact members_eq_nil (mt List.mem_eraseDups.mpr hk)
  rw [ofKeyed, ofKeyed, add_map (nodup_eraseDups _) (members keyed) hnew, List.map_append,
    List.map_singleton, hkeys]
  simp only [members_concat, List.mem_eraseDups]

/-- **Elements added one by one are in the groups of the whole list.** -/
theorem foldl_add (keyed : List (Key × Value)) :
    keyed.foldl (fun groups pair => add pair.1 pair.2 groups) [] = ofKeyed keyed := by
  induction keyed using List.reverseRecOn with
  | nil => rfl
  | append_singleton front pair ih =>
    rw [List.foldl_concat, ih]
    exact add_ofKeyed front pair.1 pair.2

theorem flatMap_add (k : Key) (v : Value) (groups : Groups) :
    ((add k v groups).flatMap Prod.snd).Perm (groups.flatMap Prod.snd ++ [v]) := by
  induction groups with
  | nil => exact List.Perm.refl _
  | cons group rest ih =>
    unfold add
    split
    · rw [List.flatMap_cons, List.flatMap_cons, List.append_assoc, List.append_assoc]
      exact List.perm_append_comm.append_left group.2
    · rw [List.flatMap_cons, List.flatMap_cons, List.append_assoc]
      exact ih.append_left group.2

/-- **The groups of a list partition it.** -/
theorem partitions_ofKeyed (keyed : List (Key × Value)) : (ofKeyed keyed).Partitions keyed where
  keys := by
    rw [ofKeyed, List.map_map]
    exact List.map_id _
  distinct := by
    rw [ofKeyed, List.map_map]
    exact (List.map_id _).symm ▸ nodup_eraseDups _
  members := by
    intro key items hmem
    obtain ⟨other, hother, heq⟩ := List.mem_map.mp hmem
    obtain ⟨rfl, rfl⟩ := Prod.mk.inj heq
    refine ⟨rfl, ?_⟩
    obtain ⟨pair, hpair, rfl⟩ := List.mem_map.mp (List.mem_eraseDups.mp hother)
    rw [Groups.members, Ne, List.map_eq_nil_iff, List.filter_eq_nil_iff]
    intro hnone
    exact hnone pair hpair (decide_eq_true rfl)
  all := by
    rw [← foldl_add]
    induction keyed using List.reverseRecOn with
    | nil => exact List.Perm.refl _
    | append_singleton front pair ih =>
      rw [List.foldl_concat, List.map_append]
      exact (flatMap_add pair.1 pair.2 _).trans (ih.append_right [pair.2])

end Groups

/-! ### Grouping what is delivered -/

/-- An arrival with its key, or the fault that it ends the grouping with. -/
def Arrival.keyed (key : Transform σ) (arrival : Arrival σ) : Except Fault (Key × Value) :=
  match ((key arrival.item).run arrival.world).result with
  | .error fault => .error fault
  | .ok value =>
    match Key.ofValue? value with
    | some k => .ok (k, arrival.item)
    | none => .error (.unhashableKey value.kind)

theorem snd_of_keyed {key : Transform σ} {arrival : Arrival σ} {pair : Key × Value}
    (h : arrival.keyed key = .ok pair) : pair.2 = arrival.item := by
  unfold Arrival.keyed at h
  split at h
  · cases h
  · split at h
    · cases h
      rfl
    · cases h

theorem result_groupStep (key : Transform σ) (groups : Groups) (arrival : Arrival σ) :
    ((Question.groupStep key groups arrival.item).run arrival.world).result =
      (arrival.keyed key).map fun pair => groups.add pair.1 pair.2 := by
  rw [Question.groupStep, Act.run_bind, Arrival.keyed]
  rcases ((key arrival.item).run arrival.world).result with fault | value
  · rfl
  · cases hkey : Key.ofValue? value with
    | none =>
      simp only [hkey]
      rfl
    | some k =>
      simp only [hkey]
      rfl

/-- Adding as one goes along is finding all keys and adding then. -/
theorem foldArrivals_groupStep (key : Transform σ) (groups : Groups)
    (arrivals : List (Arrival σ)) :
    foldArrivals (Question.groupStep key) groups arrivals =
      (arrivals.mapM (Arrival.keyed key)).map fun keyed =>
        keyed.foldl (fun groups pair => groups.add pair.1 pair.2) groups :=
  foldArrivals_eq_mapM (result_groupStep key) groups arrivals

/-- The keys belong to the arrivals, in their order. -/
theorem map_snd_of_mapM {key : Transform σ} {arrivals : List (Arrival σ)}
    {keyed : List (Key × Value)} (h : arrivals.mapM (Arrival.keyed key) = .ok keyed) :
    keyed.map Prod.snd = arrivals.map Arrival.item :=
  map_of_mapM (fun _ _ => snd_of_keyed) h

/-- The last arrival is the first without a key. -/
theorem last_of_keyed {key : Transform σ} {arrivals : List (Arrival σ)} {fault : Fault}
    {pairs : List (Key × Value)} (h : arrivals.mapM (Arrival.keyed key) = .error fault)
    (hfront : arrivals.dropLast.mapM (Arrival.keyed key) = .ok pairs) :
    ∃ last, arrivals = arrivals.dropLast ++ [last] ∧ last.keyed key = .error fault :=
  last_of_mapM h hfront

namespace Query

/-- Each element is asked for its key once. -/
theorem callsAt_groupStep (place : Nat) (key : Transform σ) (groups : Groups) (item : Value)
    (w : World (Recorded σ)) :
    ((Question.groupStep (recordedCallback place false key) groups item).run w).world.callsAt
        place = w.callsAt place ++ [⟨place, false, [item]⟩] := by
  have hcall := World.callsAt_recorded place (key item) ⟨place, false, [item]⟩ w
  rw [if_pos rfl] at hcall
  rw [Question.groupStep, Act.run_bind, ← hcall, recordedCallback]
  rcases (((key item).recorded ⟨place, false, [item]⟩).run w).result with fault | value
  · rfl
  · cases hkey : Key.ofValue? value with
    | none =>
      simp only [hkey]
      rfl
    | some k =>
      simp only [hkey]
      rfl

theorem groupStep_mirrors (place : Nat) (key : Transform σ) (groups : Groups) (item : Value) :
    (Question.groupStep (recordedCallback place false key) groups item).Mirrors
      (Question.groupStep key groups item) := by
  apply Act.Mirrors.bind (Act.mirrors_recorded _ (key item))
  intro value
  cases hkey : Key.ofValue? value with
  | none => exact Act.mirrors_ofExcept _
  | some k => exact Act.mirrors_ofExcept _

/-- The callback that finds keys is called for what is delivered, in order. -/
theorem callsAfter_groupBy (source : List Value) (settings : Settings)
    (history : List (Event σ)) (key : Transform σ) (w : World σ) :
    let q := (ofSource source settings).replay history
    let question := Question.groupBy key
    let line := (q.prepare question.start).line question.start w
    ((callsAfter source settings (history.mapIdx Event.recorded)
        (question.start.recorded history.length) w).filter
          fun call => call.place = history.length) =
      (line.delivered q.source).map fun arrival => ⟨history.length, false, [arrival.item]⟩ :=
  callsAfter_folds_once source settings history (.groupBy key) w
    (Terminal.folds_groupBy key) rfl (Terminal.folds_groupBy _) rfl
    (groupStep_mirrors history.length key) (callsAt_groupStep history.length key)

/-- If the callbacks do not disturb each other, what is delivered is the stream of the query,
    up to the first element without a key. -/
theorem delivered_of_apart {q : Query σ} {key : Transform σ} (h : q.Apart (Question.groupBy key))
    (w : World σ) :
    let terminal := (Question.groupBy key).start
    let arrived := ((q.prepare terminal).line terminal w).delivered q.source
    arrived.map Arrival.item <+: (q.stream w).items ∧
      ∀ last, foldArrivals (Question.groupStep key) [] arrived = .ok last →
        arrived.map Arrival.item = (q.stream w).items :=
  delivered_of_folds h (Terminal.folds_groupBy key) rfl (fun hlocal _ => hlocal) w

/-- **Grouping partitions what a query delivers.** -/
theorem groupBy_partitions (source : List Value) (settings : Settings)
    (history : List (Event σ)) (key : Transform σ) (w : World σ) :
    let q := (ofSource source settings).replay history
    let question := Question.groupBy key
    let line := (q.prepare question.start).line question.start w
    let arrived := line.delivered q.source
    let recorded := history.mapIdx Event.recorded
    (∀ keyed, arrived.mapM (Arrival.keyed key) = .ok keyed →
      keyed.map Prod.snd = arrived.map Arrival.item ∧
      (∀ n, q.visits question.start w = .ok n →
        ∃ groups, (q.ask question w).result = .ok groups ∧ groups.Partitions keyed) ∧
      ∀ fault, q.visits question.start w = .error fault →
        (q.ask question w).result = .error fault ∧ line.FailsUpstream q.source fault) ∧
    (∀ fault, arrived.mapM (Arrival.keyed key) = .error fault →
      (q.ask question w).result = .error fault ∧
      ∃ front last pairs, arrived = front ++ [last] ∧
        front.mapM (Arrival.keyed key) = .ok pairs ∧ last.keyed key = .error fault) ∧
    ((callsAfter source settings recorded (question.start.recorded history.length) w).filter
        fun call => call.place = history.length) =
      arrived.map (fun arrival => ⟨history.length, false, [arrival.item]⟩) ∧
    (q.Apart question → arrived.map Arrival.item <+: (q.stream w).items ∧
      ∀ keyed, arrived.mapM (Arrival.keyed key) = .ok keyed →
        arrived.map Arrival.item = (q.stream w).items) ∧
    (∀ v, Key.ofValue? v = none ↔ v.isReference = true) ∧
    ∀ v v' k k', Key.ofValue? v = some k → Key.ofValue? v' = some k' →
      (k = k' ↔ v.same v' = true ∨ v.isNaN = true ∧ v'.isNaN = true) := by
  intro q question line arrived recorded
  have hrun := q.ask_loop question w
  have hfold := Line.drainUntilStop_folds (Terminal.folds_groupBy key) (rfl : line.terminal = _) 0
    q.source
  have hsteps := foldArrivals_groupStep key [] arrived
  refine ⟨?_, ?_, ?_, ?_, fun v => Key.ofValue?_eq_none_iff, ?_⟩
  · intro keyed hkeyed
    rw [hkeyed] at hsteps
    obtain ⟨hterminal, hupstream⟩ := hfold.through hsteps
    refine ⟨map_snd_of_mapM hkeyed, ?_, ?_⟩
    · intro n hn
      rw [visits_eq_loop] at hn
      refine ⟨_, ?_, Groups.foldl_add keyed ▸ Groups.partitions_ofKeyed keyed⟩
      rw [hrun.result, hn]
      exact congrArg Terminal.finish hterminal
    · intro fault hfault
      have hvisited := hfault
      rw [visits_eq_loop] at hvisited
      exact ⟨result_of_visits hfault, hupstream fault hvisited⟩
  · intro fault hfault
    rw [hfault] at hsteps
    obtain ⟨hvisited, groups, hgroups⟩ := hfold.failed hsteps
    have hfront := foldArrivals_groupStep key [] arrived.dropLast
    rw [hgroups] at hfront
    cases hpairs : arrived.dropLast.mapM (Arrival.keyed key) with
    | error cause =>
      rw [hpairs] at hfront
      cases hfront
    | ok pairs =>
      obtain ⟨last, harrived, hlast⟩ := last_of_keyed hfault hpairs
      refine ⟨?_, _, last, pairs, harrived, hpairs, hlast⟩
      exact result_of_visits ((visits_eq_loop q question w).trans hvisited)
  · exact callsAfter_groupBy source settings history key w
  · intro hapart
    have hdelivered := delivered_of_apart hapart w
    refine ⟨hdelivered.1, ?_⟩
    intro keyed hkeyed
    rw [hkeyed] at hsteps
    exact hdelivered.2 _ hsteps
  · intro v v' k k' hk hk'
    exact Key.ofValue?_eq_iff hk hk'

/-- A grouping by the elements themselves that succeeds, one that meets a list, and one behind a
    stage that fails. -/
theorem groupBy_partitions_itself :
    let key : Transform Unit := fun v => pure v
    let w : World Unit := ⟨1, ()⟩
    let grouped := ofSource [.null, .bool true, .null] {}
    let failing := ofSource [.null, .list 0 [], .null] {}
    let fails : Predicate Unit := fun _ => .fail (.callback "no value")
    let history : List (Event Unit) := [.add (.filter fails)]
    let behind := (ofSource [.null] {}).replay history
    let terminal := (Question.groupBy key).start
    (∃ groups, (grouped.ask (.groupBy key) w).result = .ok groups ∧
      groups.Partitions [(.null, .null), (.bool true, .bool true), (.null, .null)]) ∧
    grouped.Apart (Question.groupBy key) ∧
    (grouped.stream w).items = [.null, .bool true, .null] ∧
    (failing.ask (.groupBy key) w).result = .error (.unhashableKey .list) ∧
    (behind.ask (.groupBy key) w).result = .error (.callback "no value") ∧
    ((behind.prepare terminal).line terminal w).FailsUpstream [.null] (.callback "no value") ∧
    (Key.null = Key.null ↔ Value.null.same .null = true ∨
      Value.null.isNaN = true ∧ Value.null.isNaN = true) := by
  intro key w grouped failing fails history behind terminal
  obtain ⟨hgrouped, -, -, hapart, -, hkeys⟩ :=
    groupBy_partitions [.null, .bool true, .null] {} [] key w
  obtain ⟨-, hfailing, -⟩ := groupBy_partitions [.null, .list 0 [], .null] {} [] key w
  obtain ⟨hbehind, -⟩ := groupBy_partitions [.null] {} history key w
  have hstill : grouped.Apart (Question.groupBy key) := .still (List.forall_mem_nil _)
  have hstream := (hapart hstill).2 _ rfl
  have hfault := (hbehind [] rfl).2.2 (.callback "no value") rfl
  exact ⟨(hgrouped _ rfl).2.1 3 rfl, hstill, hstream.symm, (hfailing _ rfl).1, hfault.1, hfault.2,
    hkeys .null .null .null .null rfl rfl⟩

end Query

end FusedQuery

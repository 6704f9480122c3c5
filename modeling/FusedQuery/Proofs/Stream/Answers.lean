/-
  FusedQuery/Proofs/Stream/Answers.lean
  =====================================
  **Every terminal is its function on the list of elements that a query delivers.**

  What remains after `Query.ask_eq_meaning` is to say its answers without acts and without
  machine words.  A test that is a function of the element, possibly a failing one, is an act
  that only gives an answer, and going through a list with such acts is going through it with
  the function (`anyM_ofExcept` and the like).  What a search finds and what is called are said
  of the elements alone (`Target.Finds`, `CallsInTurn`).  A source is no longer than fits a
  signed machine word, and a stream is no longer than its source (`length_emit`), so counts and
  positions do not wrap around.

  A sample consists of elements of the stream, each drawn once at most (`sample_of_stream`).
-/
import FusedQuery.Proofs.Stream.Run
import FusedQuery.Proofs.Terminal.Targets
import Mathlib.Algebra.Group.Nat.Defs
import Mathlib.Data.List.Perm.Subperm

namespace FusedQuery

variable {σ ρ α β : Type}

namespace Act

/-! ### Acts that only give an answer -/

theorem ofExcept_bind (result : Except Fault α) (next : α → Except Fault β) :
    (ofExcept result >>= fun a => ofExcept (next a) : Act σ β) = ofExcept (result >>= next) := by
  cases result <;> rfl

theorem still_of_ofExcept {f : Value → Act σ α} {p : Value → Except Fault α}
    (h : ∀ v, f v = ofExcept (p v)) (v : Value) : (f v).Still := by
  rw [h v]
  exact sees_ofExcept (p v)

theorem anyM_ofExcept (p : Value → Except Fault Bool) (xs : List Value) :
    xs.anyM (fun v => (ofExcept (p v) : Act σ Bool)) = ofExcept (xs.anyM p) := by
  induction xs with
  | nil => rfl
  | cons x xs ih =>
    rw [List.anyM_cons, List.anyM_cons, ih]
    rcases p x with fault | found
    · rfl
    · cases found <;> rfl

theorem allM_ofExcept (p : Value → Except Fault Bool) (xs : List Value) :
    xs.allM (fun v => (ofExcept (p v) : Act σ Bool)) = ofExcept (xs.allM p) := by
  induction xs with
  | nil => rfl
  | cons x xs ih =>
    rw [List.allM_cons, List.allM_cons, ih]
    rcases p x with fault | passed
    · rfl
    · cases passed <;> rfl

theorem mapM_ofExcept (p : Value → Except Fault Bool) (xs : List Value) :
    xs.mapM (fun v => (ofExcept (p v) : Act σ Bool)) = ofExcept (xs.mapM p) := by
  induction xs with
  | nil => rfl
  | cons x xs ih =>
    rw [List.mapM_cons, List.mapM_cons, ih, ← ofExcept_bind]
    congr 1
    funext mark
    rw [← ofExcept_bind]
    rfl

theorem findM?_ofExcept {ι : Type} (p : ι → Except Fault Bool) (xs : List ι) :
    xs.findM? (fun v => (ofExcept (p v) : Act σ Bool)) = ofExcept (xs.findM? p) := by
  induction xs with
  | nil => rfl
  | cons x xs ih =>
    rw [List.findM?, List.findM?, ih]
    rcases p x with fault | found
    · rfl
    · cases found <;> rfl

end Act

/-! ### Sizes -/

theorem Line.length_out (t : Line.Transit σ) : t.out.length ≤ 1 := by
  unfold Transit.out
  split <;> simp

theorem Line.length_emit (stages : List (Stage σ)) (control : Control) (w : World σ)
    (source : List Value) : (emit stages control w source).items.length ≤ source.length := by
  induction source generalizing stages control w with
  | nil => exact Nat.le_refl 0
  | cons item rest ih =>
    simp only [emit]
    split
    · exact Nat.zero_le _
    · have hout := length_out (transit control item w stages)
      have hrest := ih (transit control item w stages).stages
        (transit control item w stages).control (transit control item w stages).world
      split
      · exact Nat.zero_le _
      · simp only [Stream.after, List.length_append, List.length_cons]
        omega

theorem length_of_mapM {p : Value → Except Fault Bool} {xs : List Value} {marks : List Bool}
    (h : xs.mapM p = .ok marks) : marks.length = xs.length := by
  induction xs generalizing marks with
  | nil => cases h; rfl
  | cons x xs ih =>
    rw [List.mapM_cons] at h
    cases hx : p x with
    | error fault => rw [hx] at h; cases h
    | ok mark =>
      cases hxs : xs.mapM p with
      | error fault => rw [hx, hxs] at h; cases h
      | ok rest =>
        rw [hx, hxs] at h
        cases h
        rw [List.length_cons, List.length_cons, ih hxs]

theorem mem_of_findM? {ι : Type} {p : ι → Except Fault Bool} {xs : List ι} {x : ι}
    (h : xs.findM? p = .ok (some x)) : x ∈ xs := by
  induction xs with
  | nil => cases h
  | cons y ys ih =>
    rw [List.findM?] at h
    rcases hy : p y with fault | found
    · rw [hy] at h; cases h
    · rw [hy] at h
      cases found with
      | true => cases h; exact List.mem_cons_self
      | false => exact List.mem_cons_of_mem y (ih h)

namespace Stream

theorem map_complete (s : Stream) (f : α → β) (answer : α) :
    (s.complete answer).map f = s.complete (f answer) := by
  obtain ⟨items, fault?⟩ := s
  cases fault? <;> rfl

end Stream

namespace Question

/-! ### Questions with tests that only give an answer -/

variable {test : Predicate σ} {target : Target σ} {p : Value → Except Fault Bool}
variable {s : Stream} {w : World σ}

/-- The number of elements fits a machine word. -/
theorem meaning_length (hlength : s.items.length < 2 ^ 63) :
    (((length : Question σ UInt64).meaning s).run w).result.map UInt64.toNat =
      s.complete s.items.length := by
  have hsmall : s.items.length < UInt64.size := Nat.lt_trans hlength (by decide)
  simp only [meaning, Stream.completed, Act.run_ofExcept, s.map_complete,
    UInt64.toNat_ofNat_of_lt' hsmall]

theorem meaning_count (h : ∀ v, test v = .ofExcept (p v)) (hlength : s.items.length < 2 ^ 63) :
    ((((count test).meaning s).run w).result.map fun counts =>
        (counts.total.toNat, counts.num.toNat)) = (do
      let marks ← s.items.mapM p
      s.complete (s.items.length, marks.count true)) := by
  obtain rfl : test = fun v => .ofExcept (p v) := funext h
  simp only [meaning, Act.mapM_ofExcept, Act.run_bind, Act.run_ofExcept]
  cases hmarks : s.items.mapM p with
  | error fault => rfl
  | ok marks =>
    have hmany := length_of_mapM hmarks
    have hfew : marks.count true ≤ marks.length := List.count_le_length
    have htotal : marks.length < UInt64.size := by
      rw [hmany]
      exact Nat.lt_trans hlength (by decide)
    have hnum : marks.count true < UInt64.size := Nat.lt_of_le_of_lt hfew htotal
    show (s.complete _).map _ = s.complete _
    rw [s.map_complete, UInt64.toNat_ofNat_of_lt' htotal, UInt64.toNat_ofNat_of_lt' hnum, hmany]

theorem meaning_contains (h : target.Finds p) :
    (((contains target).meaning s).run w).result = (do
      if ← s.items.anyM p then .ok true else s.complete false) := by
  have hholds : target.holds = fun v => .ofExcept (p v) := funext h.holds
  simp only [meaning, hholds, Act.anyM_ofExcept, Act.run_bind, Act.run_ofExcept]
  rcases s.items.anyM p with fault | found
  · rfl
  · cases found <;> rfl

theorem meaning_every (h : ∀ v, test v = .ofExcept (p v)) :
    (((every test).meaning s).run w).result = (do
      if ← s.items.allM p then s.complete true else .ok false) := by
  obtain rfl : test = fun v => .ofExcept (p v) := funext h
  simp only [meaning, Act.allM_ofExcept, Act.run_bind, Act.run_ofExcept]
  rcases s.items.allM p with fault | passed
  · rfl
  · cases passed <;> rfl

/-- A position found is one of the list, so that it fits a signed machine word. -/
theorem meaning_indexOf (h : target.Finds p)
    (hlength : s.items.length < 2 ^ 63) :
    (((indexOf target).meaning s).run w).result.map Int64.toInt = (do
      match ← s.items.zipIdx.findM? fun pair => p pair.1 with
      | some pair => .ok (pair.2 : Int)
      | none => s.complete (-1)) := by
  have hholds : target.holds = fun v => .ofExcept (p v) := funext h.holds
  simp only [meaning, hholds, Act.run_bind]
  rw [Act.findM?_ofExcept fun pair : Value × Nat => p pair.1, Act.run_ofExcept]
  cases hfind : s.items.zipIdx.findM? fun pair => p pair.1 with
  | error fault => rfl
  | ok found? =>
    cases found? with
    | none => exact s.map_complete Int64.toInt (-1)
    | some pair =>
      have hmem := mem_of_findM? hfind
      have hpos : pair.2 < s.items.length := by
        have hbounds := List.snd_lt_of_mem_zipIdx hmem
        omega
      exact congrArg Except.ok (Int64.toInt_ofNat_of_lt (Nat.lt_trans hpos hlength))

/-- Visits change the world, so the world after them is said as well. -/
theorem visits_run (visit : Value → Act σ Unit) (s : Stream) (w : World σ) :
    ((do s.items.forM visit; s.completed () : Act σ Unit).run w).result =
        (((s.items.forM visit).run w).result >>= fun _ => s.complete ()) ∧
      ((do s.items.forM visit; s.completed () : Act σ Unit).run w).world =
        ((s.items.forM visit).run w).world := by
  rw [Act.run_bind]
  cases ((s.items.forM visit).run w).result <;> exact ⟨rfl, rfl⟩

end Question

/-! ### The answers -/

namespace Query

/-- The callbacks of the stages and those of a question do not disturb each other. -/
inductive Apart (q : Query σ) (question : Question σ ρ) : Prop where
  -- The stages' are functions of their arguments; the question's may do anything.
  | still : (∀ stage ∈ q.stages, stage.Acts Act.Still) → Apart q question
  -- The stages' may make new values; the question's work on the callbacks' state.
  | parts : (∀ stage ∈ q.stages, stage.Acts Act.Plain) → question.start.Acts Act.Local →
      Apart q question

/-- The answers of a query to all questions, in terms of the stream `s`.  An answer that is
    settled by a single element does not see what ends the stream, any other does; a failing
    callback ends it where it fails. -/
structure Answers (q : Query σ) (w : World σ) (s : Stream) : Prop where
  collect : (q.ask .collect w).result = s.complete s.items
  length : (q.ask .length w).result.map UInt64.toNat = s.complete s.items.length
  last : (q.last w).result = s.complete s.items.getLast?
  head : (q.ask .head w).result = match s.items with
    | item :: _ => .ok item
    | [] => s.complete .undefined
  count (test : Predicate σ) (p : Value → Except Fault Bool) :
    (∀ v, test v = .ofExcept (p v)) →
      ((q.ask (.count test) w).result.map fun counts =>
          (counts.total.toNat, counts.num.toNat)) = do
        let marks ← s.items.mapM p
        s.complete (s.items.length, marks.count true)
  contains (target : Target σ) (p : Value → Except Fault Bool) : target.Finds p →
    (q.ask (.contains target) w).result = do
      if ← s.items.anyM p then .ok true else s.complete false
  every (test : Predicate σ) (p : Value → Except Fault Bool) :
    (∀ v, test v = .ofExcept (p v)) →
      (q.ask (.every test) w).result = do
        if ← s.items.allM p then s.complete true else .ok false
  indexOf (target : Target σ) (p : Value → Except Fault Bool) : target.Finds p →
    ((q.ask (.indexOf target) w).result.map Int64.toInt) = do
      match ← s.items.zipIdx.findM? fun pair => p pair.1 with
      | some pair => .ok (pair.2 : Int)
      | none => s.complete (-1)
  -- One visit to every element, in order, up to the first that fails.
  each (visit : Value → Act σ Unit) : q.Apart (.each visit) →
    let reply := (s.items.forM visit).run w
    (q.ask (.each visit) w).result = (reply.result >>= fun _ => s.complete ()) ∧
      (q.ask (.each visit) w).world.state = reply.world.state
  -- One call for every element, in order, up to the first that fails or is no function.
  invoke (host : Host σ) (method? : Option String) : q.Apart (.invoke host method?) →
    ∃ result last, CallsInTurn host method? s.items w result last ∧
      (q.ask (.invoke host method?) w).result = (result >>= fun _ => s.complete ()) ∧
      (q.ask (.invoke host method?) w).world.state = last.state
  any {ρ : Type} (question : Question σ ρ) : q.Apart question →
    (q.ask question w).result = ((question.meaning s).run w).result ∧
      (q.ask question w).world.state = ((question.meaning s).run w).world.state

theorem ask_of_still (q : Query σ) (question : Question σ ρ)
    (h : question.start.Acts Act.Still) (w : World σ) :
    (q.ask question w).result = ((question.meaning (q.stream w)).run w).result := by
  have hstages : ∀ stage ∈ q.stages, stage.Sees Eq World.Any := fun stage _ => stage.sees_all
  rw [stream_eq_emit]
  exact (ask_eq_meaning hstages h (fun _ => rfl) (fun _ => trivial) w).1

theorem ask_of_apart {q : Query σ} {question : Question σ ρ} (h : q.Apart question)
    (w : World σ) :
    (q.ask question w).result = ((question.meaning (q.stream w)).run w).result ∧
      (q.ask question w).world.state =
        ((question.meaning (q.stream w)).run w).world.state := by
  rw [stream_eq_emit]
  cases h with
  | still hstages =>
    have hmeaning := ask_eq_meaning hstages question.start.sees_all
      (fun _ => trivial) (fun _ => rfl) w
    exact ⟨hmeaning.1, congrArg World.state hmeaning.2.symm⟩
  | parts hstages hquestion =>
    have hmeaning := ask_eq_meaning hstages hquestion (fun _ => rfl) (fun _ => rfl) w
    exact ⟨hmeaning.1, hmeaning.2.symm⟩

/-- **Every terminal answers with its function on lists, of what the query delivers.**  The
    bound on the source is that of a list in memory. -/
theorem answers_stream (q : Query σ) (hsize : q.source.length < 2 ^ 63) (w : World σ) :
    q.Answers w (q.stream w) := by
  have hstill : ∀ {ρ : Type} (question : Question σ ρ), question.start.Acts Act.Still →
      (q.ask question w).result = ((question.meaning (q.stream w)).run w).result :=
    fun question h => q.ask_of_still question h w
  have hany : ∀ {ρ : Type} (question : Question σ ρ), q.Apart question →
      (q.ask question w).result = ((question.meaning (q.stream w)).run w).result ∧
        (q.ask question w).world.state =
          ((question.meaning (q.stream w)).run w).world.state :=
    fun question h => ask_of_apart h w
  have hlength : (q.stream w).items.length < 2 ^ 63 := by
    have hle := Line.length_emit (q.stages.map Stage.reset) {} w q.source
    rw [stream_eq_emit]
    exact Nat.lt_of_le_of_lt hle hsize
  generalize q.stream w = s at hstill hany hlength
  constructor
  case any => exact hany
  case collect => exact hstill .collect trivial
  case length =>
    rw [hstill .length trivial]
    exact Question.meaning_length hlength
  case last =>
    have hcollect := hstill .collect trivial
    simp only [last, Run.map, hcollect]
    exact s.map_complete List.getLast? s.items
  case head =>
    rw [hstill .head trivial]
    cases hitems : s.items with
    | nil => simp only [Question.meaning, hitems, Stream.completed, Act.run_ofExcept]
    | cons item rest => simp only [Question.meaning, hitems, Act.run_pure]
  case count =>
    intro test p htest
    rw [hstill (.count test) (Act.still_of_ofExcept htest)]
    exact Question.meaning_count htest hlength
  case contains =>
    intro target p htarget
    rw [hstill (.contains target) (Act.still_of_ofExcept htarget.holds)]
    exact Question.meaning_contains htarget
  case every =>
    intro test p htest
    rw [hstill (.every test) (Act.still_of_ofExcept htest)]
    exact Question.meaning_every htest
  case indexOf =>
    intro target p htarget
    rw [hstill (.indexOf target) (Act.still_of_ofExcept htarget.holds)]
    exact Question.meaning_indexOf htarget hlength
  case each =>
    intro visit hvisit
    have hmeaning := hany (.each visit) hvisit
    obtain ⟨hresult, hworld⟩ := Question.visits_run visit s w
    exact ⟨hmeaning.1.trans hresult, hmeaning.2.trans (congrArg World.state hworld)⟩
  case invoke =>
    intro host method? hhost
    have hmeaning := hany (.invoke host method?) hhost
    obtain ⟨hresult, hworld⟩ := Question.visits_run (Terminal.call host method?) s w
    exact ⟨_, _, Terminal.callsInTurn_forM s.items w, hmeaning.1.trans hresult,
      hmeaning.2.trans (congrArg World.state hworld)⟩

/-- A function and an element that is none, behind a pairing that is undone again, and before an
    element that fails.  Functions note down that they are called. -/
theorem answers_failing_late :
    let fails : Predicate (List Ref) := fun v => .ofExcept <|
      if v.isUndefined then .error (.callback "no value") else .ok true
    let unpair : Transform (List Ref) := fun v => pure ((v.asList?.bind List.head?).getD v)
    let host : Host (List Ref) := fun ref _ =>
      { run := fun w => ⟨.ok .null, { w with state := w.state ++ [ref] }⟩
        supply_le := fun w => Nat.le_refl w.supply }
    let q := (ofSource [.func 5, .null, .undefined] {}).addAll
      [.filter fails, .zip [.bool true], .map unpair]
    let w : World (List Ref) := ⟨6, []⟩
    q.source.length < 2 ^ 63 ∧ q.Answers w (q.stream w) ∧
      q.stream w = ⟨[.func 5, .null], some (.callback "no value")⟩ ∧
      q.Apart (.invoke host none) ∧
      (q.ask (.invoke host none) w).result = .error (.notInvocable none) ∧
      (q.ask (.invoke host none) w).world.state = [5] ∧
      (q.ask (.contains (.value .null)) w).result = .ok true ∧
      (q.ask (.contains (.field "x" .null)) w).result = .error (.callback "no value") := by
  intro fails unpair host q w
  have hsize : q.source.length < 2 ^ 63 := by decide
  have hanswers := answers_stream q hsize w
  have hstream : q.stream w = ⟨[.func 5, .null], some (.callback "no value")⟩ := rfl
  have hplain : ∀ stage ∈ q.stages, stage.Acts Act.Plain := by
    have hstages : q.stages = [.filter fails, .zip [.bool true] 0, .map unpair] := rfl
    rw [hstages]
    simp only [List.forall_mem_cons]
    exact ⟨fun _ => Act.sees_ofExcept _, Stage.plain_zip _ 0, fun _ => Act.sees_ofExcept _,
      List.forall_mem_nil _⟩
  have hlocal : ∀ ref, (host ref []).Local := fun ref =>
    { result := fun _ => rfl
      seen := fun h => congrArg (· ++ [ref]) h
      kept := id }
  have hapart : q.Apart (.invoke host none) := .parts hplain (Terminal.sees_call hlocal none)
  refine ⟨hsize, hanswers, hstream, hapart, ?_⟩
  rw [hstream] at hanswers
  obtain ⟨result, last, hcalls, hresult, hstate⟩ := hanswers.invoke host none hapart
  obtain ⟨rfl, rfl⟩ := hcalls.unique (.called rfl rfl (.notInvocable nofun))
  exact ⟨hresult, hstate, hanswers.contains _ _ (.value .null), hanswers.contains _ _ (.field "x" .null)⟩

/-! ### Samples -/

/-- The elements at positions of their own, each of them at most as often as it is there. -/
theorem subperm_of_drawn {items : List Value} {amount : Nat} {positions : List Nat}
    (h : Drawn items.length amount positions) :
    (positions.map fun position => (items[position]?).getD .undefined).Subperm items := by
  have hall : ((List.range items.length).map fun position =>
      (items[position]?).getD .undefined) = items := by
    apply List.ext_getElem (by rw [List.length_map, List.length_range])
    intro i _ hi
    simp [hi]
  have hpositions : positions.Subperm (List.range items.length) :=
    List.subperm_of_subset h.ofTheirOwn fun position hmem =>
      List.mem_range.mpr (h.inside position hmem)
  obtain ⟨ordered, hperm, hsub⟩ := hpositions
  have hpicked := hsub.map fun position => (items[position]?).getD .undefined
  rw [hall] at hpicked
  exact ⟨_, hperm.map _, hpicked⟩

/-- **A sample is drawn from what the query delivers:** as many elements as asked for, or all if
    there are no more than that.  A query that fails has no sample. -/
theorem sample_of_stream {γ : Type} [Drawing γ] (q : Query σ) (generator : γ) (n : UInt64)
    (w : World σ) :
    ∃ picked, (q.sample generator n w).result = (q.stream w).complete picked ∧
      picked.Subperm (q.stream w).items ∧
      picked.length = min n.toNat (q.stream w).items.length := by
  have hdrawn := Drawing.drawn generator (Nat.min_le_right n.toNat (q.stream w).items.length)
  have hcollect := q.ask_of_still .collect trivial w
  refine ⟨_, ?_, subperm_of_drawn hdrawn, ?_⟩
  · simp only [sample, Run.map, hcollect]
    exact (q.stream w).map_complete _ _
  · rw [List.length_map, hdrawn.asMany]

end Query

end FusedQuery

/-
  FusedQuery/Proofs/Line/Fold.lean
  ================================
  **A line whose terminal folds.**

  What the loop delivers to a terminal are its arrivals (`delivered`).  They come one by one,
  and the stages are at work in between; the terminal takes a step of its fold in the world in
  which each arrives (`foldArrivals`).  If all steps succeed, the terminal ends with the fold,
  and only a stage can have failed besides.  If one fails, so does the traversal, and nothing is
  delivered after it (`drainUntilStop_folds`).
-/
import FusedQuery.Proofs.Line.Arrivals
import FusedQuery.Proofs.Stream.Meaning

namespace FusedQuery

variable {σ ρ β : Type}

/-- A fold over arrivals, each step of which is taken in the world of its arrival. -/
def foldArrivals (step : β → Value → Act σ β) (b : β) (arrivals : List (Arrival σ)) :
    Except Fault β :=
  arrivals.foldlM (fun b arrival => ((step b arrival.item).run arrival.world).result) b

theorem foldArrivals_append (step : β → Value → Act σ β) (b : β)
    (front rest : List (Arrival σ)) :
    foldArrivals step b (front ++ rest) =
      foldArrivals step b front >>= fun b => foldArrivals step b rest :=
  List.foldlM_append

theorem foldArrivals_singleton (step : β → Value → Act σ β) (b : β) (arrival : Arrival σ) :
    foldArrivals step b [arrival] = ((step b arrival.item).run arrival.world).result := by
  unfold foldArrivals
  rw [List.foldlM_cons]
  cases ((step b arrival.item).run arrival.world).result <;> rfl

/-- What a terminal leaves alone, the steps of its fold do. -/
theorem Terminal.step_keeps {S T : World σ → World σ → Prop} {terminal : β → Terminal σ ρ}
    {step : β → Value → Act σ β} (hfolds : Folds terminal step)
    (hacts : ∀ b, (terminal b).Sees T S) (b : β) (item : Value) {u w : World σ} (h : S u w) :
    S u ((step b item).run w).world := by
  obtain ⟨broken, haccept⟩ := hfolds
  have hkept := accept_keeps (hacts b) {} item h
  rw [haccept] at hkept
  cases hresult : ((step b item).run w).result <;> simpa only [hresult] using hkept

namespace Line

/-- What arrives at the terminal when the loop sends a source down the line. -/
def delivered (line : Line σ ρ) (source : List Value) : List (Arrival σ) :=
  line.arrivals line.stages.length (line.sent source)

/-- The last element that the loop sends fails in a stage. -/
def FailsUpstream (line : Line σ ρ) (source : List Value) (fault : Fault) : Prop :=
  ∃ front item, line.sent source = front ++ [item] ∧
    (transit (line.after front).control item (line.after front).world
      (line.after front).stages).flow = .error fault

/-! ### One element -/

theorem Transit.arrival?_of_error {t : Transit σ} {fault : Fault} (h : t.flow = .error fault) :
    t.arrival? = none := by rw [arrival?, h]

theorem Transit.arrival?_of_drop {t : Transit σ} (h : t.flow = .ok .drop) :
    t.arrival? = none := by rw [arrival?, h]

theorem Transit.arrival?_of_forward {t : Transit σ} {out : Value}
    (h : t.flow = .ok (.forward out)) : t.arrival? = some ⟨out, t.world⟩ := by rw [arrival?, h]

theorem delivered_of_stop {line : Line σ ρ} (h : line.control.stop = true)
    (source : List Value) : line.delivered source = [] := by
  cases source with
  | nil => rfl
  | cons item rest => simp only [delivered, sent, if_pos h, arrivals]

section Dispatch

variable {line next : Line σ ρ} {item : Value} {fault : Fault}

theorem drainUntilStop_of_ok (h : line.control.stop = false)
    (hdispatch : line.dispatch item = ⟨.ok (), next⟩) (visited : Nat) (rest : List Value) :
    line.drainUntilStop visited (item :: rest) = next.drainUntilStop (visited + 1) rest := by
  simp only [drainUntilStop, h, hdispatch, Bool.false_eq_true, ↓reduceIte]

theorem drainUntilStop_of_error (h : line.control.stop = false)
    (hdispatch : line.dispatch item = ⟨.error fault, next⟩) (visited : Nat)
    (rest : List Value) :
    line.drainUntilStop visited (item :: rest) = ⟨.error fault, next⟩ := by
  simp only [drainUntilStop, h, hdispatch, Bool.false_eq_true, ↓reduceIte]

theorem delivered_of_ok (h : line.control.stop = false)
    (hdispatch : line.dispatch item = ⟨.ok (), next⟩) (rest : List Value) :
    line.delivered (item :: rest) =
      (transit line.control item line.world line.stages).arrival?.toList ++
        next.delivered rest := by
  have hlength := line.length_dispatch item
  rw [hdispatch] at hlength
  simp only [delivered, sent, h, hdispatch, Bool.false_eq_true, ↓reduceIte, arrivals, hlength,
    arrival?, List.take_length]

theorem delivered_of_error (h : line.control.stop = false)
    (hdispatch : line.dispatch item = ⟨.error fault, next⟩) (rest : List Value) :
    line.delivered (item :: rest) =
      (transit line.control item line.world line.stages).arrival?.toList := by
  simp only [delivered, sent, h, hdispatch, Bool.false_eq_true, ↓reduceIte, arrivals, arrival?,
    List.take_length, List.append_nil]

theorem FailsUpstream.cons (h : line.control.stop = false)
    (hdispatch : line.dispatch item = ⟨.ok (), next⟩) {rest : List Value}
    (hrest : next.FailsUpstream rest fault) : line.FailsUpstream (item :: rest) fault := by
  obtain ⟨front, last, hsent, hflow⟩ := hrest
  refine ⟨item :: front, last, ?_, ?_⟩
  · simp only [sent, h, hdispatch, Bool.false_eq_true, ↓reduceIte, hsent, List.cons_append]
  · simp only [after, List.foldl_cons, hdispatch]
    exact hflow

theorem FailsUpstream.of_flow (h : line.control.stop = false)
    (hdispatch : line.dispatch item = ⟨.error fault, next⟩)
    (hflow : (transit line.control item line.world line.stages).flow = .error fault)
    (rest : List Value) : line.FailsUpstream (item :: rest) fault := by
  refine ⟨[], item, ?_, hflow⟩
  simp only [sent, h, hdispatch, Bool.false_eq_true, ↓reduceIte, List.nil_append]

end Dispatch

/-- How a traversal ends, of whose line the terminal folds from `b`. -/
structure Traversal.Folds (t : Traversal σ ρ) (line : Line σ ρ) (source : List Value)
    (terminal : β → Terminal σ ρ) (step : β → Value → Act σ β) (b : β) : Prop where
  through {last : β} : foldArrivals step b (line.delivered source) = .ok last →
    t.line.terminal = terminal last ∧
      ∀ fault, t.visited = .error fault → line.FailsUpstream source fault
  failed {fault : Fault} : foldArrivals step b (line.delivered source) = .error fault →
    t.visited = .error fault ∧
      ∃ last, foldArrivals step b (line.delivered source).dropLast = .ok last

/-- What becomes of an element in a line whose terminal folds and has come to `b`. -/
inductive DispatchFolds (line : Line σ ρ) (item : Value) (terminal : β → Terminal σ ρ)
    (step : β → Value → Act σ β) (b : β) (t : Transit σ) : Prop
  | upstream {fault : Fault} (flow : t.flow = .error fault)
      (dispatch : line.dispatch item =
        ⟨.error fault, ⟨t.stages, t.control, terminal b, t.world⟩⟩)
  | dropped (flow : t.flow = .ok .drop)
      (dispatch : line.dispatch item = ⟨.ok (), ⟨t.stages, t.control, terminal b, t.world⟩⟩)
  | taken {out : Value} {next : β} (flow : t.flow = .ok (.forward out))
      (result : ((step b out).run t.world).result = .ok next)
      (dispatch : line.dispatch item =
        ⟨.ok (), ⟨t.stages, t.control, terminal next, ((step b out).run t.world).world⟩⟩)
  | failed {out : Value} {fault : Fault} {broken : Terminal σ ρ}
      (flow : t.flow = .ok (.forward out))
      (result : ((step b out).run t.world).result = .error fault)
      (dispatch : line.dispatch item =
        ⟨.error fault, ⟨t.stages, t.control, broken, ((step b out).run t.world).world⟩⟩)

theorem dispatch_folds {terminal : β → Terminal σ ρ} {step : β → Value → Act σ β}
    (hfolds : Terminal.Folds terminal step) {line : Line σ ρ} {b : β}
    (hterminal : line.terminal = terminal b) (item : Value) :
    line.DispatchFolds item terminal step b
      (transit line.control item line.world line.stages) := by
  have hdispatch := line.dispatch_eq_deliver item
  generalize transit line.control item line.world line.stages = t at hdispatch
  rw [Transit.deliver, hterminal] at hdispatch
  cases hflow : t.flow with
  | error fault =>
    rw [hflow] at hdispatch
    exact .upstream hflow hdispatch
  | ok flow =>
    rw [hflow] at hdispatch
    cases flow with
    | drop => exact .dropped hflow hdispatch
    | forward out =>
      obtain ⟨broken, haccept⟩ := hfolds
      simp only [(terminal b).accept_eq t.control, haccept] at hdispatch
      cases hresult : ((step b out).run t.world).result with
      | error fault =>
        rw [hresult] at hdispatch
        exact .failed hflow hresult hdispatch
      | ok next =>
        rw [hresult] at hdispatch
        exact .taken hflow hresult hdispatch

/-- A step that succeeds, or an element that is dropped, and then the rest of the source. -/
theorem Traversal.Folds.cons {t : Traversal σ ρ} {line next : Line σ ρ} {item : Value}
    {rest : List Value} {terminal : β → Terminal σ ρ} {step : β → Value → Act σ β} {b b' : β}
    (hstop : line.control.stop = false) (hdispatch : line.dispatch item = ⟨.ok (), next⟩)
    (hfirst : foldArrivals step b
      (transit line.control item line.world line.stages).arrival?.toList = .ok b')
    (hrest : t.Folds next rest terminal step b') :
    t.Folds line (item :: rest) terminal step b := by
  have hfold : ∀ later, foldArrivals step b
      ((transit line.control item line.world line.stages).arrival?.toList ++ later) =
        foldArrivals step b' later := by
    intro later
    have hboth := foldArrivals_append step b
      (transit line.control item line.world line.stages).arrival?.toList later
    rw [hfirst] at hboth
    exact hboth
  have hdelivered := delivered_of_ok hstop hdispatch rest
  constructor
  · intro last hlast
    rw [hdelivered, hfold] at hlast
    obtain ⟨hend, hupstream⟩ := hrest.through hlast
    refine ⟨hend, ?_⟩
    intro fault hfault
    exact (hupstream fault hfault).cons hstop hdispatch
  · intro fault hfault
    rw [hdelivered, hfold] at hfault
    obtain ⟨hvisited, last, hlast⟩ := hrest.failed hfault
    refine ⟨hvisited, last, ?_⟩
    have hsome : next.delivered rest ≠ [] := by
      intro hnil
      rw [hnil] at hfault
      cases hfault
    rw [hdelivered, List.dropLast_append_of_ne_nil hsome, hfold]
    exact hlast

/-- By induction on the source. -/
theorem drainUntilStop_folds {terminal : β → Terminal σ ρ} {step : β → Value → Act σ β}
    (hfolds : Terminal.Folds terminal step) {line : Line σ ρ} {b : β}
    (hterminal : line.terminal = terminal b) (visited : Nat) (source : List Value) :
    (line.drainUntilStop visited source).Folds line source terminal step b := by
  induction source generalizing line b visited with
  | nil =>
    constructor
    · intro last hlast
      obtain rfl := Except.ok.inj hlast
      exact ⟨hterminal, nofun⟩
    · intro fault hfault
      cases hfault
  | cons item rest ih =>
    cases hstop : line.control.stop with
    | true =>
      rw [drainUntilStop_of_stop line.stages hstop]
      constructor
      · intro last hlast
        rw [delivered_of_stop hstop] at hlast
        obtain rfl := Except.ok.inj hlast
        exact ⟨hterminal, nofun⟩
      · intro fault hfault
        rw [delivered_of_stop hstop] at hfault
        cases hfault
    | false =>
      have hone := dispatch_folds hfolds hterminal item
      cases hone with
      | upstream hflow hdispatch =>
        have hdelivered := delivered_of_error hstop hdispatch rest
        rw [Transit.arrival?_of_error hflow] at hdelivered
        rw [drainUntilStop_of_error hstop hdispatch]
        constructor
        · intro last hlast
          rw [hdelivered] at hlast
          obtain rfl := Except.ok.inj hlast
          refine ⟨rfl, ?_⟩
          intro fault hfault
          rw [← Except.error.inj hfault]
          exact FailsUpstream.of_flow hstop hdispatch hflow rest
        · intro fault hfault
          rw [hdelivered] at hfault
          cases hfault
      | dropped hflow hdispatch =>
        rw [drainUntilStop_of_ok hstop hdispatch]
        apply Traversal.Folds.cons hstop hdispatch _ (ih rfl (visited + 1))
        rw [Transit.arrival?_of_drop hflow]
        rfl
      | taken hflow hresult hdispatch =>
        rw [drainUntilStop_of_ok hstop hdispatch]
        apply Traversal.Folds.cons hstop hdispatch _ (ih rfl (visited + 1))
        rw [Transit.arrival?_of_forward hflow]
        exact (foldArrivals_singleton _ _ _).trans hresult
      | failed hflow hresult hdispatch =>
        have hdelivered := delivered_of_error hstop hdispatch rest
        rw [Transit.arrival?_of_forward hflow] at hdelivered
        have hfold := (foldArrivals_singleton step b ⟨_, _⟩).trans hresult
        rw [drainUntilStop_of_error hstop hdispatch]
        constructor
        · intro last hlast
          rw [hdelivered] at hlast
          cases hfold.symm.trans hlast
        · intro fault hfault
          rw [hdelivered] at hfault ⊢
          rw [Except.error.inj (hfault.symm.trans hfold)]
          exact ⟨rfl, b, rfl⟩

/-- If the stages and the terminal do not disturb each other, what is delivered is the stream
    that the stages emit on their own, up to the element at which a step of the fold fails. -/
theorem delivered_emit {S T : World σ → World σ → Prop} {terminal : β → Terminal σ ρ}
    {step : β → Value → Act σ β} (hfolds : Terminal.Folds terminal step)
    (hacts : ∀ b, (terminal b).Sees T S) {line : Line σ ρ} {b : β}
    (hterminal : line.terminal = terminal b) (hstages : ∀ stage ∈ line.stages, stage.Sees S T)
    {u : World σ} (hu : S u line.world) (source : List Value) :
    (line.delivered source).map Arrival.item <+:
        (emit line.stages line.control u source).items ∧
      ∀ last, foldArrivals step b (line.delivered source) = .ok last →
        (line.delivered source).map Arrival.item =
          (emit line.stages line.control u source).items := by
  induction source generalizing line b u with
  | nil => exact ⟨List.prefix_refl _, fun _ _ => rfl⟩
  | cons item rest ih =>
    cases hstop : line.control.stop with
    | true =>
      rw [delivered_of_stop hstop, emit_of_stop hstop]
      exact ⟨List.prefix_refl _, fun _ _ => rfl⟩
    | false =>
      obtain ⟨hflow, hsame, hcontrol, hseen⟩ := transit_agree hstages line.control item hu
      have hafter := acts_transit hstages line.control item line.world
      have hone := dispatch_folds hfolds hterminal item
      simp only [emit, hstop, Bool.false_eq_true, ↓reduceIte, Transit.out, hflow, hsame, hcontrol]
      generalize ht : transit line.control item line.world line.stages = t at hseen hafter hone
      cases hone with
      | upstream hflow hdispatch =>
        rw [delivered_of_error hstop hdispatch, ht, Transit.arrival?_of_error hflow, hflow]
        exact ⟨List.prefix_refl _, fun _ _ => rfl⟩
      | dropped hflow hdispatch =>
        rw [delivered_of_ok hstop hdispatch, ht, Transit.arrival?_of_drop hflow, hflow]
        exact ih rfl hafter hseen
      | @taken out next hflow hresult hdispatch =>
        have hkept := Terminal.step_keeps hfolds hacts b out hseen
        obtain ⟨hfront, hall⟩ :=
          @ih ⟨t.stages, t.control, terminal next, ((step b out).run t.world).world⟩ next rfl
            hafter _ hkept
        have hlonger := (List.prefix_append_right_inj [out]).mpr hfront
        rw [delivered_of_ok hstop hdispatch, ht, Transit.arrival?_of_forward hflow, hflow]
        refine ⟨hlonger, ?_⟩
        intro last hlast
        rw [Option.toList_some, foldArrivals_append, foldArrivals_singleton, hresult] at hlast
        exact congrArg (out :: ·) (hall last hlast)
      | failed hflow hresult hdispatch =>
        rw [delivered_of_error hstop hdispatch, ht, Transit.arrival?_of_forward hflow, hflow]
        refine ⟨List.prefix_append _ _, ?_⟩
        intro last hlast
        rw [Option.toList_some, foldArrivals_singleton, hresult] at hlast
        cases hlast

end Line

end FusedQuery

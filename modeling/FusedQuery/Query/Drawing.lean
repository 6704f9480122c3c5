/-
  FusedQuery/Query/Drawing.lean
  =============================
  **Drawing positions at random.**

  How positions of a list are drawn is the business of whoever brings the generator
  (`Drawing`).  All that a sample relies on is in `Drawn`: there are as many as asked for, and
  each is a position of its own.

  With a generator of the standard library, one position is drawn after the other, each time one
  of those that are left (`drawFrom`).  Nothing rests on that but running.
-/

namespace FusedQuery

/-- Some positions of a list of a given length. -/
structure Drawn (length amount : Nat) (positions : List Nat) : Prop where
  asMany : positions.length = amount
  ofTheirOwn : positions.Nodup
  inside : ∀ position ∈ positions, position < length

/-- A generator with a way to draw positions. -/
class Drawing (γ : Type) where
  draw (generator : γ) (length amount : Nat) : List Nat
  drawn (generator : γ) {length amount : Nat} :
    amount ≤ length → Drawn length amount (draw generator length amount)

/-! ### One after the other -/

/-- Draw up to `amount` of what is left, all of it alike likely. -/
def drawFrom {γ : Type} [RandomGen γ] (generator : γ) : (amount : Nat) → List Nat → List Nat
  | 0, _ => []
  | amount + 1, left =>
    let (number, generator) := randNat generator 0 (left.length - 1)
    let index := number % left.length
    match left[index]? with
    | some position => position :: drawFrom generator amount (left.eraseIdx index)
    | none => []

variable {γ : Type} [RandomGen γ]

theorem mem_of_mem_drawFrom {generator : γ} {amount position : Nat} {left : List Nat}
    (h : position ∈ drawFrom generator amount left) : position ∈ left := by
  induction amount generalizing generator left with
  | zero => exact absurd h List.not_mem_nil
  | succ amount ih =>
    simp only [drawFrom] at h
    split at h
    · rename_i first hfirst
      rcases List.mem_cons.mp h with rfl | hlater
      · exact List.mem_of_getElem? hfirst
      · exact List.mem_of_mem_eraseIdx (ih hlater)
    · exact absurd h List.not_mem_nil

theorem nodup_drawFrom {generator : γ} {amount : Nat} {left : List Nat} (h : left.Nodup) :
    (drawFrom generator amount left).Nodup := by
  induction amount generalizing generator left with
  | zero => exact List.nodup_nil
  | succ amount ih =>
    simp only [drawFrom]
    split
    · rename_i first hfirst
      refine List.nodup_cons.mpr ⟨?_, ih (h.eraseIdx _)⟩
      intro hlater
      -- What is drawn later stands at another place.
      obtain ⟨place, hother, hsame⟩ :=
        List.mem_eraseIdx_iff_getElem?.mp (mem_of_mem_drawFrom hlater)
      have hplace := (List.getElem?_eq_some_iff.mp hsame).1
      exact hother ((List.getElem?_inj hplace h).mp (hsame.trans hfirst.symm))
    · exact List.nodup_nil

theorem length_drawFrom (generator : γ) {amount : Nat} (left : List Nat)
    (h : amount ≤ left.length) : (drawFrom generator amount left).length = amount := by
  induction amount generalizing generator left with
  | zero => rfl
  | succ amount ih =>
    simp only [drawFrom]
    generalize (randNat generator 0 (left.length - 1)).2 = later
    generalize hindex : (randNat generator 0 (left.length - 1)).1 % left.length = index
    have hinside : index < left.length := by
      rw [← hindex]
      exact Nat.mod_lt _ (Nat.lt_of_lt_of_le (Nat.succ_pos amount) h)
    have hleft := List.length_eraseIdx_of_lt hinside
    rw [List.getElem?_eq_getElem hinside, List.length_cons,
      ih later (left.eraseIdx index) (hleft ▸ Nat.le_sub_one_of_lt h)]

instance : Drawing γ where
  draw generator length amount := drawFrom generator amount (List.range length)
  drawn generator length amount h :=
    { asMany := length_drawFrom generator _ (by rwa [List.length_range])
      ofTheirOwn := nodup_drawFrom List.nodup_range
      inside := fun _ hmem => List.mem_range.mp (mem_of_mem_drawFrom hmem) }

end FusedQuery

import Mathlib

/-! Loops over a region in blocks of one width.
Loads and stores that leave the region fail. While a loop works, the part of the region before its index has its final
values and the part from there on the values of the start. -/
namespace BlockLoop

variable {α : Type*}

def loadAt (b : List α) (i n : Nat) : Option (List α) := if i + n ≤ b.length then some ((b.drop i).take n) else none

def storeAt (b : List α) (i : Nat) (v : List α) : Option (List α) :=
  if i + v.length ≤ b.length then some (b.take i ++ (v ++ b.drop (i + v.length))) else none

/-- `for (; i + width <= size; i += width)`. The loop does not end within the fuel if the result is `none`, or a block
leaves its region. -/
def run (width size : Nat) (body : Nat → List α → Option (List α)) : Nat → Nat → List α → Option (Nat × List α)
  | 0, _, _ => none
  | fuel + 1, i, b =>
    if i + width ≤ size then (body i b).bind fun b => run width size body fuel (i + width) b else some (i, b)

/-- The final values `out` before the index, the values of the start from there on. -/
def front (out b : List α) (i : Nat) : List α := out.take i ++ b.drop i

section Front

variable {out b : List α} {i n : Nat}

theorem front_zero (out b : List α) : front out b 0 = b := by simp [front]

theorem front_length (out b : List α) : front out b out.length = out ++ b.drop out.length := by simp [front]

theorem length_front (inside : i ≤ out.length) (fits : out.length ≤ b.length) : (front out b i).length = b.length := by
  rw [front, List.length_append, List.length_take, List.length_drop]
  omega

theorem take_front (inside : i ≤ out.length) : (front out b i).take i = out.take i :=
  List.take_left' (by rw [List.length_take]; omega)

theorem drop_front (inside : i ≤ out.length) : (front out b i).drop (i + n) = b.drop (i + n) := by
  have before : (out.take i).length = i := by rw [List.length_take]; omega
  rw [front, ← List.drop_drop, List.drop_left' before, List.drop_drop]

theorem loadAt_front (inside : i + n ≤ out.length) (fits : out.length ≤ b.length) :
    loadAt (front out b i) i n = some ((b.drop i).take n) := by
  have rest := drop_front (b := b) (n := 0) (show i ≤ out.length by omega)
  rw [Nat.add_zero] at rest
  rw [loadAt, length_front (by omega) fits, if_pos (by omega), rest]

theorem storeAt_front {v : List α} (final : v = (out.drop i).take n) (inside : i + n ≤ out.length)
    (fits : out.length ≤ b.length) : storeAt (front out b i) i v = some (front out b (i + n)) := by
  have size : v.length = n := by
    rw [final, List.length_take, List.length_drop]
    omega
  rw [storeAt, size, length_front (by omega) fits, if_pos (by omega), take_front (by omega), drop_front (by omega), final,
    front, List.take_add, List.append_assoc]

/-- A loop whose blocks get their final values goes on to the last whole block. -/
theorem run_front {width size fuel : Nat} {body : Nat → List α → Option (List α)} (positive : 0 < width)
    (each : ∀ i, i + width ≤ size → body i (front out b i) = some (front out b (i + width))) (inside : i ≤ size)
    (enough : size < i + fuel) : ∃ j, run width size body fuel i (front out b i) = some (j, front out b j) ∧
      j ≤ size ∧ size < j + width := by
  induction fuel generalizing i with
  | zero => omega
  | succ fuel ih =>
    rw [run]
    by_cases more : i + width ≤ size
    · rw [if_pos more, each i more, Option.bind_some]
      exact ih more (by omega)
    · rw [if_neg more]
      exact ⟨i, rfl, inside, by omega⟩

end Front

end BlockLoop

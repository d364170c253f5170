import MiniRtc.Lib.Bytes

/-! Little-endian base 128 numbers: seven bits an octet, the low ones first, the high bit
set on all octets but the last. An encoding may be longer than it has to be. -/
namespace Wire

def IsLeb128 : Bytes → Prop
  | [] => False
  | b :: rest => if b.toNat < 128 then rest = [] else IsLeb128 rest

instance decidableIsLeb128 : (f : Bytes) → Decidable (IsLeb128 f)
  | [] => inferInstanceAs (Decidable False)
  | b :: rest =>
    have := decidableIsLeb128 rest
    inferInstanceAs (Decidable (if b.toNat < 128 then rest = [] else IsLeb128 rest))

def leb128 : Bytes → Nat
  | [] => 0
  | b :: rest => b.toNat % 128 + 128 * leb128 rest

theorem IsLeb128.nonempty {f : Bytes} (legal : IsLeb128 f) : 0 < f.length := by
  cases f with
  | nil => exact legal.elim
  | cons b rest => simp

/-- No encoding is the beginning of another one. -/
theorem IsLeb128.append_inj {f g s t : Bytes} (first : IsLeb128 f) (second : IsLeb128 g)
    (same : f ++ s = g ++ t) : f = g ∧ s = t := by
  induction f generalizing g with
  | nil => exact first.elim
  | cons b rest ih =>
    cases g with
    | nil => exact second.elim
    | cons b' rest' =>
      simp only [List.cons_append, List.cons.injEq] at same
      obtain ⟨rfl, tails⟩ := same
      simp only [IsLeb128] at first second
      split at first
      · simp_all
      · rename_i more
        simp only [more, if_false] at second
        obtain ⟨rfl, rfl⟩ := ih first second tails
        exact ⟨rfl, rfl⟩

theorem leb128_lt (f : Bytes) : leb128 f < 128 ^ f.length := by
  induction f with
  | nil => simp [leb128]
  | cons b rest ih =>
    simp only [leb128, List.length_cons, Nat.pow_succ]
    have := Nat.mod_lt b.toNat (by decide : 0 < 128)
    omega

end Wire

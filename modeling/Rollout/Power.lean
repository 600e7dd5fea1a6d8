/-
  Powers of two and of ten: what a number of bits can count, and the scales of decimals.
-/
namespace Rollout

/-- The number of values of `n` bits. -/
def twoTo (n : Nat) : Nat := 1 <<< n

/-- The scale of `n` decimal places. -/
def tenTo (n : Nat) : Nat := Nat.pow 10 n

theorem twoTo_eq (n : Nat) : twoTo n = Nat.pow 2 n := Nat.one_shiftLeft n

theorem twoTo_pos (n : Nat) : 0 < twoTo n := twoTo_eq n ▸ Nat.two_pow_pos n

end Rollout

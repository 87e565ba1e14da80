/-!
# Powers

Powers of natural numbers by a name of their own. The reader of numbers and the printer are full of
them.
-/

namespace StaticSite.Number

/-- A power of a natural number. -/
def power (base exponent : Nat) : Nat := Nat.pow base exponent

theorem power_succ (base n : Nat) : power base (n + 1) = power base n * base := rfl

end StaticSite.Number

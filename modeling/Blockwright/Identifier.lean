/-!
# Identifiers

The components of a form are told apart by identifiers, which come from a supply. Counting up
makes projects reproducible; scrambled identifiers tell projects apart.
-/

namespace Blockwright

/-- A supply of identifiers: it hands one out and goes on from there. -/
abbrev Supply (σ : Type) := σ → String × σ

namespace Supply

/-- Counts up from a number, which starts again at zero when it would need more than 64 bits. -/
def counting : Supply UInt64 := fun n ↦ (toString n.toNat, n + 1)

/-- Mixes the bits of a number. -/
def scramble (n : UInt64) : UInt64 :=
  let n := (n ^^^ (n >>> 30)) * 0xBF58476D1CE4E5B9
  let n := (n ^^^ (n >>> 27)) * 0x94D049BB133111EB
  n ^^^ (n >>> 31)

/-- Hands out decimals below one thousand million in no visible order. -/
def scrambled : Supply UInt64 := fun seed ↦
  let seed := seed + 0x9E3779B97F4A7C15
  (toString ((scramble seed).toNat % 1000000000), seed)

/-- The next `count` identifiers of a supply. -/
def take {σ : Type} (supply : Supply σ) : Nat → σ → List String
  | 0, _ => []
  | count + 1, s => (supply s).1 :: take supply count (supply s).2

end Supply

end Blockwright

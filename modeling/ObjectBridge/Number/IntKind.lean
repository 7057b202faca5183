namespace ObjectBridge

inductive IntKind where
  | i8 | i16 | i32 | i64 | u8 | u16 | u32 | u64
  deriving DecidableEq, Repr, Inhabited

namespace IntKind

def bits : IntKind → Nat
  | .i8 | .u8 => 8
  | .i16 | .u16 => 16
  | .i32 | .u32 => 32
  | .i64 | .u64 => 64

def isSigned : IntKind → Bool
  | .i8 | .i16 | .i32 | .i64 => true
  | _ => false

def least (k : IntKind) : Int := if k.isSigned then -(Nat.pow 2 (k.bits - 1) : Nat) else 0

def greatest (k : IntKind) : Int :=
  (Nat.pow 2 (if k.isSigned then k.bits - 1 else k.bits) : Nat) - 1

def holds (k : IntKind) (n : Int) : Prop := k.least ≤ n ∧ n ≤ k.greatest

instance (k : IntKind) (n : Int) : Decidable (k.holds n) := inferInstanceAs (Decidable (_ ∧ _))

def wrap (k : IntKind) (n : Int) : Int :=
  if k.isSigned then n.bmod (Nat.pow 2 k.bits) else n % (Nat.pow 2 k.bits : Nat)

theorem holds_wrap (k : IntKind) (n : Int) : k.holds (k.wrap n) := by
  cases k <;>
    simp only [holds, least, greatest, wrap, isSigned, bits, Int.bmod_def, Nat.pow_eq,
      Nat.reducePow] <;>
    grind

def name : IntKind → String
  | .i8 => "i8"
  | .i16 => "i16"
  | .i32 => "i32"
  | .i64 => "i64"
  | .u8 => "u8"
  | .u16 => "u16"
  | .u32 => "u32"
  | .u64 => "u64"

end IntKind

end ObjectBridge

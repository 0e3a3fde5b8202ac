/-!
# Powers

Sizes and bounds are powers of natural numbers. They are those of the core library, whatever other
instances are in scope where they are written.
-/

namespace Candela

@[default_instance high]
instance (priority := high) natPow : Pow Nat Nat := instPowNat

end Candela

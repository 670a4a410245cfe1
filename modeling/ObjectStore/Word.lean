/-!
# Words

How many values a word of some bits has. Numbers that come from outside are below one of these.
-/

namespace ObjectStore

/-- The number of values of 32 bits. -/
abbrev word32 : Nat := 4294967296

/-- The number of values of 64 bits. -/
abbrev word64 : Nat := 18446744073709551616

end ObjectStore

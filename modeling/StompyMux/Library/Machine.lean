import Mathlib.Algebra.Group.Nat.Defs

-- The largest values of the machine integers.
namespace StompyMux.Library

def U16_MAX : Nat := 2 ^ 16 - 1

def U32_MAX : Nat := 2 ^ 32 - 1

def U64_MAX : Nat := 2 ^ 64 - 1

def USIZE_MAX : Nat := 2 ^ 64 - 1

def I64_MAX : Nat := 2 ^ 63 - 1

end StompyMux.Library

/-! # The two implementations

The device side is written in C++ and the host side in Python.  Where the two do
the same, step for step, there is one definition for both; where they differ,
the namespaces `Cpp` and `Python` hold a definition each, and a `Language`
chooses between them.
-/

namespace EmbeddedBridge

inductive Language where
  | cpp
  | python
deriving DecidableEq, Repr

end EmbeddedBridge

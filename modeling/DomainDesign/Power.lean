/-!
# Powers

A power of a natural number or of an integer is that of the core library, also where a larger
library brings powers of its own into scope.  So `2 ^ 63` is the same expression in a definition and
in what is proved about it.
-/

attribute [instance (20000), default_instance 20000] instPowNat

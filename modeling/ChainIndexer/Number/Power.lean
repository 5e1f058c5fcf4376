/-!
Powers of whole numbers. A power of a natural number or of an integer is the built-in one in every
module, also where a library with powers of its own is in scope.
-/

attribute [instance (high), default_instance (20000)] instPowNat

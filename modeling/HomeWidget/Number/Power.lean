/-!
# Powers

`x ^ n` on natural numbers and integers is the standard library's power wherever it is written. Mathlib brings a
second one, a monoid's, and would otherwise prefer it in the modules that import it.
-/

attribute [instance (high)] instPowNat
attribute [default_instance 20000] instPowNat

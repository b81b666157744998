/-!
# Values with named constants

A type whose values are texts, some of which have a name: `Named name` has the named values and,
for every other text, one value. So a text is the text of exactly one value.
-/

inductive Named {κ τ : Type} (name : κ → τ)
  | known (k : κ)
  | other (text : τ) (h : ∀ k, name k ≠ text)
  deriving DecidableEq

namespace Named

variable {κ τ : Type} {name : κ → τ}

def text : Named name → τ
  | known k => name k
  | other text _ => text

end Named

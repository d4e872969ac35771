namespace Tabular

/-- Whether a text begins with another one; the rest of it then. -/
def stripStart? : List Char → List Char → Option (List Char)
  | [], s => some s
  | _ :: _, [] => none
  | c :: p, d :: s => if c = d then stripStart? p s else none

def occursIn (p : List Char) : List Char → Bool
  | [] => p.isEmpty
  | c :: s => (stripStart? p (c :: s)).isSome || occursIn p s

/-- Writes every occurrence of a text twice; `skip` characters belong to an occurrence that has been
written already. -/
def doubledFrom (p : List Char) (skip : Nat) : List Char → List Char
  | [] => []
  | c :: s =>
    match skip with
    | n + 1 => doubledFrom p n s
    | 0 =>
      if (stripStart? p (c :: s)).isSome then p ++ p ++ doubledFrom p (p.length - 1) s
      else c :: doubledFrom p 0 s

/-- Writes every occurrence of a non-empty text twice, from the left. -/
def doubled (p s : List Char) : List Char :=
  if p.isEmpty then s else doubledFrom p 0 s

end Tabular

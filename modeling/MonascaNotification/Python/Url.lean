import MonascaNotification.Python.Value

/-!
# `urllib.parse`

The plugins take the URL and the query parameters from an address. What `urllib` does with it
is a parameter of theirs (`Urllib`).
-/

namespace MonascaNotification

/-- The parameters of a query: a name, and its values in their order. -/
abbrev QueryParams := List (String × List String)

/-- How an address is taken apart. `urlsplit` refuses some texts. -/
structure Urllib where
  /-- `urllib.parse.urlsplit(address).query` -/
  query : String → Except PyExn String
  /-- `urllib.parse.parse_qs` -/
  parseQs : String → QueryParams
  /-- `urllib.parse.urljoin(address, urllib.parse.urlparse(address).path)` -/
  withoutQuery : String → Except PyExn String

/-- The address as `urllib` takes it. What is false stands for an empty text. -/
def addressText (address : Json) : Except PyExn String :=
  match address with
  | .str s => .ok s
  | other => if other.truthy then .error .attributeError else .ok ""

/-! ## Escapes and parameters -/

def hexValue (c : Char) : Option Nat :=
  if '0' ≤ c ∧ c ≤ '9' then some (c.toNat - 48)
  else if 'a' ≤ c ∧ c ≤ 'f' then some (c.toNat - 87)
  else if 'A' ≤ c ∧ c ≤ 'F' then some (c.toNat - 55)
  else none

def addParam (params : QueryParams) (pair : String × String) : QueryParams :=
  if params.any (·.1 == pair.1) then
    params.map fun param => if param.1 = pair.1 then (param.1, param.2 ++ [pair.2]) else param
  else params ++ [(pair.1, [pair.2])]

end MonascaNotification

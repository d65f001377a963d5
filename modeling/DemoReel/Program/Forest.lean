import DemoReel.Program.Operation

/-!
# Flat streams and forests

In the byte format the children of a block follow it in one flat stream.  Grouping moves them into
their block, one level deep; flattening puts them back.
-/

namespace DemoReel.Forest

open Operation

/-- Groups a flat stream.  A block takes as many of the operations after it as it declares, or all
that are left; what it holds already stays in front. -/
def ofFlat : List Operation → List Operation
  | [] => []
  | leaf instruction :: rest => leaf instruction :: ofFlat rest
  | block childCount children :: rest =>
    block childCount (children ++ rest.take childCount.toNat) :: ofFlat (rest.drop childCount.toNat)
termination_by ops => ops.length

mutual

/-- One operation with everything below it, as a flat stream. -/
def flattenOne : Operation → List Operation
  | leaf instruction => [leaf instruction]
  | block childCount children => block childCount [] :: flatten children

def flatten : List Operation → List Operation
  | [] => []
  | op :: ops => flattenOne op ++ flatten ops

end

end DemoReel.Forest

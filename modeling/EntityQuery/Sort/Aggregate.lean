import EntityQuery.Config
import EntityQuery.Value.Order

/-!
# Aggregates

A sort rule that reaches many values of an entity sorts by one of them: the first, or the least
or greatest that is not null. Lists among the values are flattened at every depth first, so the
key is a single value; without any value it is null.

`Aggregate.choose` formalizes `aggregated`, and `Value.leavesOfAll` its `flatten`. `Value.least?`
and `Value.greatest?` are `min_by` and `max_by`, which settle ties in opposite ways.
-/

namespace EntityQuery

namespace Value

mutual
/-- The values inside a value that are no lists, in their order. -/
def leaves : Value → List Value
  | .list items => leavesOfAll items
  | v => [v]
/-- The values inside values that are no lists, in their order. -/
def leavesOfAll : List Value → List Value
  | [] => []
  | v :: vs => leaves v ++ leavesOfAll vs
end

/-- Of two values the one that comes first in sort order; of equal ones the first. -/
def lesser (v w : Value) : Value := if sortOrder v w = .gt then w else v

/-- Of two values the one that comes last in sort order; of equal ones the second. -/
def greater (v w : Value) : Value := if sortOrder v w = .gt then v else w

/-- The value that is left when one is chosen of the first two, one of that and the third, and so
on. -/
def reduce? (choose : Value → Value → Value) : List Value → Option Value
  | [] => none
  | v :: vs => some (vs.foldl choose v)

/-- The least of some values in sort order. -/
def least? : List Value → Option Value := reduce? lesser

/-- The greatest of some values in sort order. -/
def greatest? : List Value → Option Value := reduce? greater

end Value

/-- The value among those reached that counts. -/
def Aggregate.choose (a : Aggregate) (reached : List Value) : Value :=
  let leaves := Value.leavesOfAll reached
  let present := leaves.filter fun v => !v.isNull
  (match a with
    | .first => leaves.head?
    | .min => Value.least? present
    | .max => Value.greatest? present).getD .null

end EntityQuery

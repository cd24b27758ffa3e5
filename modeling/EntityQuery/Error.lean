import EntityQuery.Filter.Operator
import EntityQuery.Json.Basic
import EntityQuery.Value.Type

/-!
# Errors

What can be wrong with a filter or a sort order. Every error arises while a specification is
compiled; what has been compiled never fails. Errors are causes, and `CompileError.message` is
the one place where they are put into words.

`CompileError` formalizes `QueryError`, `CompileError.message` its display and `CompileError.code`
its `error_code`.
-/

namespace EntityQuery

/-- What is wrong with a property path. -/
inductive PathFault where
  /-- The path has no characters. -/
  | empty
  /-- A segment has no name. -/
  | emptySegment
  /-- A segment has brackets elsewhere than in the marker at its end. -/
  | malformedMarker (segment : String)
  /-- The entity has no such member. -/
  | unknownMember (name entity : String)
  /-- The marker stands after what is no collection. -/
  | notCollection (name : String)
  /-- A marked collection is the end of the path. -/
  | endsAtMarker (name : String)
  /-- The path goes on after a collection without a marker. -/
  | unmarkedCollection (name : String)
  /-- The path goes on after a member that is no entity. -/
  | notEntity (next : String) (type : ValueType) (name : String)
deriving DecidableEq, Repr

/-- What could not be converted. -/
inductive ConversionSource where
  /-- A literal of some kind. -/
  | literal (kind : JsonKind)
  /-- Another property. -/
  | property
deriving DecidableEq, Repr

/-- What it could not be converted to. -/
inductive ConversionTarget where
  /-- A value of a type. -/
  | type (t : ValueType)
  /-- Two bounds of a type. -/
  | rangeOf (t : ValueType)
deriving DecidableEq, Repr

/-- What a property was used for. -/
inductive Usage where
  | filter (op : Operator)
  | sort
deriving DecidableEq, Repr

/-- Why a specification does not compile. -/
inductive CompileError where
  /-- A path is malformed, or names what the entity does not have. -/
  | path (path : String) (fault : PathFault)
  /-- A literal or a property has not the type that the property asks for. -/
  | conversion (text : String) (source : ConversionSource) (target : ConversionTarget)
  /-- The operator is not defined for the type of the property. -/
  | unsupported (usage : Usage) (property : String) (type : ValueType)
  /-- A sort rule reaches a collection, and nothing says which of its values counts. -/
  | ambiguousSort (path : String)
deriving DecidableEq, Repr

namespace PathFault

/-- The fault in words. -/
def message : PathFault → String
  | empty => "path is empty"
  | emptySegment => "empty segment"
  | malformedMarker segment => "malformed collection marker in '" ++ segment ++ "'"
  | unknownMember name entity => "unknown member '" ++ name ++ "' on " ++ entity
  | notCollection name => "'" ++ name ++ "' is not a collection"
  | endsAtMarker name => "'" ++ name ++ "[]' must be followed by a member"
  | unmarkedCollection name =>
    "'" ++ name ++ "' is a collection; use '" ++ name ++ "[]' to reach its members"
  | notEntity next type name =>
    "cannot read '" ++ next ++ "' from " ++ type.text ++ " member '" ++ name ++ "'"

end PathFault

/-- The source in words. -/
def ConversionSource.text : ConversionSource → String
  | .literal kind => kind.name
  | .property => "property"

/-- The target in words. -/
def ConversionTarget.text : ConversionTarget → String
  | .type t => t.text
  | .rangeOf t => "range of " ++ t.text

/-- The use in words. -/
def Usage.text : Usage → String
  | .filter op => op.name
  | .sort => "Sort"

namespace CompileError

/-- The error in words. -/
def message : CompileError → String
  | path p fault => "Cannot resolve path '" ++ p ++ "': " ++ fault.message
  | conversion text source target =>
    "Cannot convert " ++ source.text ++ " value " ++ text ++ " to " ++ target.text
  | unsupported usage property type =>
    "Operator " ++ usage.text ++ " is not supported on '" ++ property ++ "' (" ++ type.text ++ ")"
  | ambiguousSort p => "Sort on collection path '" ++ p ++ "' requires an aggregation policy"

/-- The name of the kind of error. -/
def code : CompileError → String
  | path .. => "path_resolution"
  | conversion .. => "coercion"
  | unsupported .. => "unsupported_operator"
  | ambiguousSort .. => "collection_sort_ambiguity"

end CompileError

end EntityQuery

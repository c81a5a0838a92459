/-
Where an evaluated value came from.

A value carries the source fields it was read from (its trace), the identity
that container equality compares, and, through JSON conversion and text
functions, the sources that still count as membership evidence.
-/
import Antiburn.Budget

namespace Antiburn

inductive EvaluationDependencyKind where
  | value
  | membership
  deriving DecidableEq

structure EvaluationDependency where
  path : List PathSegment
  kind : EvaluationDependencyKind
  deriving DecidableEq

/-- The source evidence selected by an expression. -/
structure EvaluationTrace where
  dependencies : List EvaluationDependency := []

namespace EvaluationTrace

def push (trace : EvaluationTrace) (dependency : EvaluationDependency) : EvaluationTrace :=
  if dependency ∈ trace.dependencies then trace
  else ⟨trace.dependencies ++ [dependency]⟩

/-- Merge dependencies without changing their first-read order. -/
def merge (trace other : EvaluationTrace) : EvaluationTrace :=
  other.dependencies.foldl push trace

def add (trace : EvaluationTrace) (path : List PathSegment) (kind : EvaluationDependencyKind) :
    EvaluationTrace :=
  trace.merge ⟨[⟨path, kind⟩]⟩

end EvaluationTrace

/-- The identity of a container: its place in the frozen context, or its place
in a generated value. -/
inductive ValueIdentity where
  | frozen (path : List PathSegment)
  | generated (root : Nat) (path : List PathSegment)
  deriving DecidableEq

def ValueIdentity.child (segment : PathSegment) : ValueIdentity → ValueIdentity
  | frozen path => frozen (path ++ [segment])
  | generated root path => generated root (path ++ [segment])

/-- Source shape that survives JSON conversion. -/
structure ValueProvenance where
  origin : Option (List PathSegment) := none
  items : List ValueProvenance := []
  textSources : EvaluationTrace := {}
  membershipSources : EvaluationTrace := {}
  encodedProvenance : Option ValueProvenance := none

namespace ValueProvenance

def child (provenance : ValueProvenance) (segment : PathSegment) : ValueProvenance :=
  let item := match segment with
    | .index index => provenance.items[index]?
    | .property _ => none
  match item with
  | some item =>
    { item with membershipSources := item.membershipSources.merge provenance.membershipSources }
  | none =>
    { origin := provenance.origin.map (· ++ [segment])
      membershipSources := provenance.membershipSources }

/-- Add the sources that the text of `value` carries. -/
def collectSources (provenance : ValueProvenance) (value : Json) (sources : EvaluationTrace) :
    EvaluationTrace :=
  let sources := (sources.merge provenance.textSources).merge provenance.membershipSources
  match value.isContainer, provenance.origin with
  | true, some origin => sources.add origin .membership
  | _, _ => sources

end ValueProvenance

structure ValueMetadata where
  identity : Option ValueIdentity := none
  origin : Option (List PathSegment) := none
  dependencies : EvaluationTrace := {}
  items : List ValueMetadata := []
  /-- JSON conversion keeps source shape for membership, not value identity. -/
  provenance : Option ValueProvenance := none
  encodedProvenance : Option ValueProvenance := none
  textSources : EvaluationTrace := {}
  membershipSources : EvaluationTrace := {}

namespace ValueMetadata

def frozen (path : List PathSegment) : ValueMetadata :=
  { identity := some (.frozen path), origin := some path }

def derived (dependencies : EvaluationTrace) : ValueMetadata := { dependencies }

def restoreProvenance (metadata : ValueMetadata) (provenance : ValueProvenance) : ValueMetadata :=
  { metadata with
    textSources := provenance.textSources
    membershipSources := provenance.membershipSources
    encodedProvenance := provenance.encodedProvenance
    provenance := some provenance }

def child (metadata : ValueMetadata) (segment : PathSegment) : ValueMetadata :=
  let item := match segment with
    | .index index => metadata.items[index]?
    | .property _ => none
  match item with
  | some item =>
    { item with
      dependencies := item.dependencies.merge metadata.dependencies
      membershipSources := item.membershipSources.merge metadata.membershipSources }
  | none =>
    let plain : ValueMetadata :=
      { identity := metadata.identity.map (·.child segment)
        origin := metadata.origin.map (· ++ [segment])
        dependencies := metadata.dependencies
        membershipSources := metadata.membershipSources }
    match metadata.provenance with
    | none => plain
    | some provenance =>
      let restored := plain.restoreProvenance (provenance.child segment)
      { restored with
        membershipSources := restored.membershipSources.merge metadata.membershipSources }

mutual

def trace : ValueMetadata → EvaluationTrace
  | ⟨_, origin, dependencies, items, _, _, _, _⟩ =>
    let start := match origin with
      | some origin => dependencies.add origin .value
      | none => dependencies
    traceItems items start

def traceItems : List ValueMetadata → EvaluationTrace → EvaluationTrace
  | [], trace => trace
  | item :: rest, trace => traceItems rest (trace.merge item.trace)

end

/-- Membership evidence, without the fields of every item. -/
def membershipTrace (metadata : ValueMetadata) : EvaluationTrace :=
  let trace := metadata.dependencies.merge metadata.membershipSources
  match metadata.origin.or (metadata.provenance.bind (·.origin)) with
  | some origin => trace.add origin .membership
  | none => trace

mutual

/-- The provenance that JSON conversion carries along. -/
def sourceProvenance : ValueMetadata → ValueProvenance
  | ⟨_, origin, _, items, provenance, encoded, text, membership⟩ =>
    let base := match provenance with
      | some provenance => provenance
      | none => { origin := origin, items := sourceProvenances items }
    { base with
      textSources := text
      membershipSources := membership
      encodedProvenance := encoded }

@[inherit_doc sourceProvenance]
def sourceProvenances : List ValueMetadata → List ValueProvenance
  | [] => []
  | item :: rest => item.sourceProvenance :: sourceProvenances rest

end

def textSourceTrace (metadata : ValueMetadata) : EvaluationTrace :=
  metadata.textSources.merge metadata.membershipSources

end ValueMetadata

/-- A value during evaluation.  Values borrowed from the context or from a
binding are charged when they are copied out. -/
structure RuntimeValue where
  value : Option Json
  owned : Bool
  metadata : ValueMetadata

/-- Available data, selected evidence and frozen-value identity; `none` stands
for a value that the frozen context does not provide. -/
structure EvaluatedValue where
  value : Option Json
  trace : EvaluationTrace
  metadata : ValueMetadata

/-- Local map aliases, latest first. -/
abbrev EvaluationBindings := List (String × EvaluatedValue)

namespace RuntimeValue

/-- A generated value without container identity. -/
def scalar (value : Json) (dependencies : EvaluationTrace) : RuntimeValue :=
  ⟨some value, true, { dependencies }⟩

/-- A generated value; containers get a fresh identity. -/
def ofOwned (value : Json) (dependencies : EvaluationTrace) : EvalM RuntimeValue :=
  if value.isContainer then do
    let root ← EvalM.freshRoot
    return ⟨some value, true, { identity := some (.generated root []), dependencies }⟩
  else return scalar value dependencies

def unavailable (metadata : ValueMetadata) : RuntimeValue := ⟨none, true, metadata⟩

def trace (value : RuntimeValue) : EvaluationTrace := value.metadata.trace

end RuntimeValue

end Antiburn

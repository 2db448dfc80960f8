import Mathlib.Data.Finset.Insert
import Kirino.Rbac.Dynamic.Verdict
/-!
# Domain — task domains and domain scopes (`rbac/dynamic/domain.rs`)

What a request outside the current task domain is charged.  An empty list of prefixes confines nothing; an empty set of
categories allows nothing.
-/
namespace Kirino
namespace Rbac
namespace Dynamic

def domainResourceMismatchWeight : ℚ := 3 / 10

def adjacentDomainWeight : ℚ := 15 / 100

def outOfDomainWeight : ℚ := 6 / 10

structure TaskDomain where
  domainName : String
  allowedActionCategories : Finset ActionCategory
  allowedResourcePrefixes : List String
  trustFloor : ℚ
deriving DecidableEq

namespace TaskDomain

/-- One part of a path after the components before it. -/
def pushPart (components : List (List Char)) (part : List Char) : List (List Char) :=
  if part = [] ∨ part = ['.'] then components
  else if part = ['.', '.'] then components.dropLast
  else components ++ [part]

def normalizePath (path : String) : String :=
  match (path.toList.splitOn '/').foldl pushPart [] with
  | [] => "/"
  | components => String.ofList (components.flatMap (fun component => '/' :: component))

def isResourceAllowed (domain : TaskDomain) (path : String) : Bool :=
  domain.allowedResourcePrefixes.isEmpty ||
    domain.allowedResourcePrefixes.any (fun start => start.toList.isPrefixOf (normalizePath path).toList)

/-- The path is allowed when there is one. -/
def allowsPath? (domain : TaskDomain) (resourcePath : Option String) : Bool :=
  match resourcePath with
  | some path => domain.isResourceAllowed path
  | none => true

end TaskDomain

inductive DomainMatch where
  | inDomain
  | adjacent (excessWeight : ℚ)
  | domainResourceMismatch (excessWeight : ℚ)
  | outOfDomain (excessWeight : ℚ)
deriving DecidableEq, Repr

def DomainMatch.excessWeight : DomainMatch → ℚ
  | .inDomain => 0
  | .adjacent excessWeight => excessWeight
  | .domainResourceMismatch excessWeight => excessWeight
  | .outOfDomain excessWeight => excessWeight

structure DomainScope where
  currentTaskDomain : TaskDomain
  adjacentDomains : List TaskDomain
deriving DecidableEq

def DomainScope.evaluate (scope : DomainScope) (category : ActionCategory) (resourcePath : Option String) : DomainMatch :=
  let inDomain := decide (category ∈ scope.currentTaskDomain.allowedActionCategories)
  let resourceOk := scope.currentTaskDomain.allowsPath? resourcePath
  if inDomain && resourceOk then .inDomain
  else if inDomain && !resourceOk then .domainResourceMismatch domainResourceMismatchWeight
  else if scope.adjacentDomains.any (fun d => decide (category ∈ d.allowedActionCategories)) then
    if scope.adjacentDomains.any (fun d => decide (category ∈ d.allowedActionCategories) && d.allowsPath? resourcePath)
    then .adjacent adjacentDomainWeight
    else .domainResourceMismatch (adjacentDomainWeight + domainResourceMismatchWeight)
  else .outOfDomain outOfDomainWeight

end Dynamic
end Rbac
end Kirino

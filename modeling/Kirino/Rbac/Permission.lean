import Mathlib.Data.String.Basic
/-!
# Permission — the typed catalog (`rbac/permission.rs`, `kirino-macro/src/lib.rs`)

A hierarchical permission is a list of domains, each with its actions; its points are the leaves `domain.action`, in
snake case.  A path resolves to the leaf of that name, and a domain's name expands to the domain's leaves.
-/
namespace Kirino
namespace Rbac

structure DomainEntry where
  name : String
  actions : List String

/-- A domain's identifier in snake case. -/
def domainSnake (name : String) : String :=
  String.ofList (name.toList.zipIdx.flatMap (fun x =>
    if x.1.isUpper then (if x.2 > 0 then ['_', x.1.toLower] else [x.1.toLower]) else [x.1]))

def actionSnake (name : String) : String := String.ofList (name.toList.map Char.toLower)

structure LeafData where
  domainSnake : String
  actionSnake : String
deriving DecidableEq, Repr

def LeafData.leafName (leaf : LeafData) : String := leaf.domainSnake ++ "." ++ leaf.actionSnake

structure HierarchicalPermission where
  domains : List DomainEntry

namespace HierarchicalPermission

def leavesOf (domain : DomainEntry) : List LeafData :=
  domain.actions.map (fun action => ⟨domainSnake domain.name, actionSnake action⟩)

def all (p : HierarchicalPermission) : List LeafData := p.domains.flatMap leavesOf

def fromPath (p : HierarchicalPermission) (path : String) : Option LeafData :=
  p.all.find? (fun leaf => leaf.leafName == path)

def expandDomain (p : HierarchicalPermission) (domainStr : String) : List LeafData :=
  match p.domains.find? (fun domain => domainSnake domain.name == domainStr) with
  | some domain => leavesOf domain
  | none => []

/-- **A path resolves to the leaf of that name.** -/
theorem leafName_of_fromPath {p : HierarchicalPermission} {path : String} {leaf : LeafData}
    (h : p.fromPath path = some leaf) : leaf ∈ p.all ∧ leaf.leafName = path :=
  ⟨List.mem_of_find?_eq_some h, by simpa using List.find?_some h⟩

theorem mem_expandDomain {p : HierarchicalPermission} {domainStr : String} {leaf : LeafData}
    (h : leaf ∈ p.expandDomain domainStr) : leaf ∈ p.all ∧ leaf.domainSnake = domainStr := by
  unfold expandDomain at h
  cases hf : p.domains.find? (fun domain => domainSnake domain.name == domainStr) with
  | none =>
    rw [hf] at h
    cases h
  | some domain =>
    rw [hf] at h
    refine ⟨List.mem_flatMap.2 ⟨domain, List.mem_of_find?_eq_some hf, h⟩, ?_⟩
    obtain ⟨action, -, rfl⟩ := List.mem_map.1 h
    simpa using List.find?_some hf

end HierarchicalPermission

/-- The catalog the crate declares. -/
def permissionCatalog : HierarchicalPermission where
  domains := [
    ⟨"Agent", ["Read", "Write", "Execute"]⟩,
    ⟨"Config", ["Read", "Write"]⟩,
    ⟨"Knowledge", ["Read", "Write"]⟩,
    ⟨"Container", ["Read", "Write"]⟩,
    ⟨"System", ["Read", "Write"]⟩,
    ⟨"Deploy", ["Read", "Execute"]⟩,
    ⟨"Provider", ["List", "Create", "Update", "Delete", "Use"]⟩,
    ⟨"Mcp", ["List", "Create", "Update", "Delete", "Use"]⟩,
    ⟨"Channel", ["List", "Create", "Update", "Delete", "Use"]⟩,
    ⟨"Yolo", ["Use"]⟩,
    ⟨"Workspace", ["List", "Create", "Manage"]⟩,
    ⟨"Device", ["List", "Connect"]⟩,
    ⟨"Rbac", ["Manage"]⟩,
    ⟨"Oauth", ["Read", "Write"]⟩,
    ⟨"Plugin", ["Read", "Install", "Publish", "Manage"]⟩]

example : permissionCatalog.fromPath "plugin.install" = some ⟨"plugin", "install"⟩ := by decide

end Rbac
end Kirino

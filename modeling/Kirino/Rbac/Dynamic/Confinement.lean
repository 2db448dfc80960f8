import Kirino.Rbac.Dynamic.Domain
import Kirino.Lib.Walk
/-!
# Confinement — which paths an allowed prefix lets in (`rbac/dynamic/domain.rs`)

A request path is resolved as a file system would resolve it from the root, without looking at one: `resolve` reads the
legs from the last to the first, where the code pushes and pops from the first to the last.  A prefix that ends in its
separator (`ConfiningPrefix`) then lets in exactly the places strictly below its own.
-/
namespace Kirino
namespace Rbac
namespace Dynamic

open Lib (Leg walk net)

/-- A name of a directory or a file: what neither stays nor climbs, and is one part. -/
def IsName (component : List Char) : Prop :=
  component ≠ [] ∧ '/' ∉ component ∧ component ≠ ['.'] ∧ component ≠ ['.', '.']

instance isNameDecidable (component : List Char) : Decidable (IsName component) :=
  inferInstanceAs (Decidable (_ ∧ _ ∧ _ ∧ _))

def legOf (part : List Char) : Leg (List Char) :=
  if part = [] ∨ part = ['.'] then .stay else if part = ['.', '.'] then .up else .down part

/-- The names of the place the path leads to from the root. -/
def resolve (path : String) : List (List Char) := (net ((path.toList.splitOn '/').map legOf)).2

/-- The absolute path of a place. -/
def absolutePath (components : List (List Char)) : String := String.ofList ('/' :: ['/'].intercalate components)

namespace TaskDomain

theorem pushPart_eq (components : List (List Char)) (part : List Char) :
    pushPart components part = (legOf part).go components := by
  unfold pushPart legOf
  split
  · rfl
  · split <;> rfl

theorem foldl_pushPart (components parts : List (List Char)) :
    parts.foldl pushPart components = walk components (parts.map legOf) := by
  unfold walk
  rw [List.foldl_map]
  congr 1
  funext place part
  exact pushPart_eq place part

/-- What the pushes and pops leave is the place the path resolves to. -/
theorem foldl_pushPart_nil (path : String) : (path.toList.splitOn '/').foldl pushPart [] = resolve path := by
  rw [foldl_pushPart, Lib.walk_root]
  rfl

theorem flatMap_eq_intercalate {components : List (List Char)} (hne : components ≠ []) :
    components.flatMap (fun component => '/' :: component) = '/' :: ['/'].intercalate components := by
  induction components with
  | nil => exact absurd rfl hne
  | cons component components ih =>
    cases components with
    | nil => simp
    | cons next components => rw [List.flatMap_cons, ih (by simp), List.intercalate_cons_cons]; simp

/-- **The normalised path is the absolute path of the place resolved.** -/
theorem normalizePath_eq (path : String) : normalizePath path = absolutePath (resolve path) := by
  unfold normalizePath
  rw [foldl_pushPart_nil]
  split
  · next h => rw [h]; rfl
  · next h => rw [flatMap_eq_intercalate h]; rfl

end TaskDomain

open TaskDomain

theorem isName_of_mem_resolve {path : String} {component : List Char} (h : component ∈ resolve path) : IsName component := by
  obtain ⟨part, hpart, hleg⟩ := List.mem_map.1 (Lib.down_mem_of_mem_net h)
  have hslash := Lib.not_mem_of_mem_splitOn hpart
  unfold legOf at hleg
  split at hleg
  · cases hleg
  · next hstay =>
    split at hleg
    · cases hleg
    · next hup =>
      cases hleg
      exact ⟨fun hnil => hstay (Or.inl hnil), hslash, fun hdot => hstay (Or.inr hdot), hup⟩

theorem legOf_of_isName {component : List Char} (h : IsName component) : legOf component = .down component := by
  obtain ⟨hnil, _, hdot, hdots⟩ := h
  simp [legOf, hnil, hdot, hdots]

theorem map_legOf {components : List (List Char)} (h : ∀ component ∈ components, IsName component) :
    components.map legOf = components.map Leg.down :=
  List.map_congr_left (fun component hcomponent => legOf_of_isName (h component hcomponent))

theorem splitOn_absolutePath (components : List (List Char)) :
    (absolutePath components).toList.splitOn '/' = [] :: (['/'].intercalate components).splitOn '/' := by
  have happend := List.splitOn_append_cons_self (a := '/') [] (['/'].intercalate components)
  rw [List.splitOn_nil] at happend
  rw [absolutePath, String.toList_ofList]
  exact happend

/-- An absolute path resolves to its own place. -/
theorem resolve_absolutePath {components : List (List Char)} (h : ∀ component ∈ components, IsName component) :
    resolve (absolutePath components) = components := by
  unfold resolve
  rw [splitOn_absolutePath]
  by_cases hne : components = []
  · subst hne
    rfl
  · rw [List.splitOn_intercalate '/' (fun component hcomponent => (h component hcomponent).2.1) hne, List.map_cons,
      map_legOf h]
    change (net (components.map Leg.down)).2 = components
    rw [Lib.net_map_down]

/-- A prefix of the form `/c1/…/cn/`. -/
structure ConfiningPrefix where
  components : List (List Char)
  ne_nil : components ≠ []
  isName : ∀ component ∈ components, IsName component

def ConfiningPrefix.text (start : ConfiningPrefix) : String := absolutePath start.components ++ "/"

theorem ConfiningPrefix.text_isPrefixOf_iff (start : ConfiningPrefix) {components : List (List Char)}
    (h : ∀ component ∈ components, IsName component) :
    start.text.toList.isPrefixOf (absolutePath components).toList = true ↔
      ∃ rest, rest ≠ [] ∧ components = start.components ++ rest := by
  rw [List.isPrefixOf_iff_prefix, text, absolutePath, absolutePath, String.toList_append]
  have hslash : "/".toList = ['/'] := rfl
  rw [hslash, String.toList_ofList, String.toList_ofList, List.cons_append, List.cons_prefix_cons,
    Lib.joined_start_iff (fun name hname => (start.isName name hname).2.1) start.ne_nil
      (fun name hname => (h name hname).2.1)]
  simp

theorem normalizePath_normalizePath (path : String) : normalizePath (normalizePath path) = normalizePath path := by
  rw [normalizePath_eq (normalizePath path), normalizePath_eq path,
    resolve_absolutePath (fun _ hcomponent => isName_of_mem_resolve hcomponent)]

/-- **A domain behind confining prefixes lets in exactly the places strictly below one of them.**  Every path is normalised to
the absolute path of the place it resolves to, whose parts are all names, and that path is its own normal form. -/
theorem isResourceAllowed_confined (domain : TaskDomain) (start : ConfiningPrefix) (starts : List ConfiningPrefix)
    (hdomain : domain.allowedResourcePrefixes = (start :: starts).map ConfiningPrefix.text) (path : String) :
    normalizePath path = absolutePath (resolve path) ∧ (∀ component ∈ resolve path, IsName component) ∧
      normalizePath (normalizePath path) = normalizePath path ∧
      (domain.isResourceAllowed path = true ↔
        ∃ p ∈ start :: starts, ∃ rest, rest ≠ [] ∧ resolve path = p.components ++ rest) := by
  have hnames : ∀ component ∈ resolve path, IsName component := fun _ hcomponent => isName_of_mem_resolve hcomponent
  refine ⟨normalizePath_eq path, hnames, normalizePath_normalizePath path, ?_⟩
  have hempty : domain.allowedResourcePrefixes.isEmpty = false := by rw [hdomain]; rfl
  rw [isResourceAllowed, hempty, Bool.false_or, hdomain, List.any_map, List.any_eq_true]
  refine exists_congr (fun p => and_congr_right (fun _ => ?_))
  rw [Function.comp_apply, normalizePath_eq]
  exact p.text_isPrefixOf_iff hnames

/-- The prefix `/tank/`. -/
def tankPrefix : ConfiningPrefix := ⟨[['t', 'a', 'n', 'k']], by decide, by decide⟩

/-- A climb out of the tank into a sibling whose name begins like it is not let in, whatever stands between. -/
theorem tank_confined :
    (⟨"storage", ∅, ["/tank/"], 0⟩ : TaskDomain).isResourceAllowed "/tank//a/./../../tank2/x" = false := by
  have h := (isResourceAllowed_confined ⟨"storage", ∅, ["/tank/"], 0⟩ tankPrefix [] (by decide +kernel)
    "/tank//a/./../../tank2/x").2.2.2
  rw [Bool.eq_false_iff, Ne, h]
  rintro ⟨p, hp, rest, _, hresolve⟩
  rw [List.mem_singleton.1 hp] at hresolve
  have hplace : resolve "/tank//a/./../../tank2/x" = [['t', 'a', 'n', 'k', '2'], ['x']] := by decide +kernel
  rw [hplace] at hresolve
  simp [tankPrefix] at hresolve

end Dynamic
end Rbac
end Kirino

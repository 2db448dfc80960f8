import Mathlib.Data.List.DropRight
import Kirino.Session.KeySet
/-!
# Middleware — where a request's token is taken from (`packages/session/src/middleware/`)

An extractor tries its sources in order: the bearer header, a cookie, a parameter of the query.  What a source carries is
read by exact names (`AuthSource.carries`); the first source that carries anything wins, also when what it carries is
empty, and `selectToken_iff` says when that is the first token there is.
-/
namespace Kirino
namespace Session

open Lib (isWhitespace)

/-! ## Texts -/

/-- The text before the first separator, and the text after it. -/
def splitOnce (separator : Char) : List Char → Option (List Char × List Char)
  | [] => none
  | c :: text =>
    if c = separator then some ([], text) else (splitOnce separator text).map (fun parts => (c :: parts.1, parts.2))

theorem splitOnce_eq_some_iff {separator : Char} {text front back : List Char} :
    splitOnce separator text = some (front, back) ↔ separator ∉ front ∧ text = front ++ separator :: back := by
  induction text generalizing front with
  | nil => simp [splitOnce]
  | cons c text ih =>
    unfold splitOnce
    split
    · next hc =>
      subst hc
      constructor
      · intro h
        cases h
        exact ⟨by simp, rfl⟩
      · rintro ⟨hfront, htext⟩
        cases front with
        | nil =>
          cases htext
          rfl
        | cons d front =>
          cases htext
          exact absurd List.mem_cons_self hfront
    · next hc =>
      rw [Option.map_eq_some_iff]
      constructor
      · rintro ⟨⟨front', back'⟩, hparts, heq⟩
        cases heq
        obtain ⟨hfront, rfl⟩ := ih.1 hparts
        refine ⟨fun hmem => ?_, rfl⟩
        rcases List.mem_cons.1 hmem with heq | hmem
        · exact hc heq.symm
        · exact hfront hmem
      · rintro ⟨hfront, htext⟩
        cases front with
        | nil =>
          cases htext
          exact absurd rfl hc
        | cons d front =>
          cases htext
          exact ⟨(front, back), ih.2 ⟨fun hmem => hfront (List.mem_cons_of_mem _ hmem), rfl⟩, rfl⟩

def trimStart (text : List Char) : List Char := text.dropWhile isWhitespace

def trimText (text : List Char) : List Char := (trimStart text).rdropWhile isWhitespace

def eqIgnoreAsciiCase (a b : List Char) : Bool := decide (a.map Char.toLower = b.map Char.toLower)

/-- A header value as text, when its bytes are visible ASCII. -/
def toStr (value : List UInt8) : Option (List Char) :=
  if value.all (fun b => (decide (32 ≤ b) && decide (b < 127)) || b == 9) then
    some (value.map (fun b => Char.ofNat b.toNat))
  else none

/-! ## The extractor -/

def bearerToken (headerValue : List Char) : Option (List Char) :=
  match splitOnce ' ' headerValue with
  | none => none
  | some (scheme, token) =>
    if eqIgnoreAsciiCase scheme "bearer".toList && !(trimStart token).isEmpty then some (trimStart token) else none

inductive AuthSource where
  | bearer
  | cookie (name : List Char)
  | query (name : List Char)
deriving DecidableEq, Repr

/-- Of a request: the values of its two headers, in order, and its query string. -/
structure Parts where
  authorization : List (List UInt8)
  cookie : List (List UInt8)
  query : Option (List Char)

def extractToken (source : AuthSource) (parts : Parts) : Option (List Char) :=
  match source with
  | .bearer => (parts.authorization.head?.bind toStr).bind bearerToken
  | .cookie name =>
    (parts.cookie.head?.bind toStr).bind (fun raw =>
      (((raw.splitOn ';').map trimText).filterMap (fun pair => (name ++ ['=']).isPrefixOf? pair)).head?)
  | .query name =>
    parts.query.bind (fun query =>
      (((query.splitOn '&').filterMap (splitOnce '=')).find? (fun pair => decide (pair.1 = name))).map Prod.snd)

/-- The sources in their order: the first that has anything. -/
def selectToken (sources : List AuthSource) (parts : Parts) : Option (List Char) :=
  sources.findSome? (fun source => extractToken source parts)

inductive AuthRejection where
  | missingHeader
  | invalidFormat
  | invalid
  | expired
  | missingManager
deriving DecidableEq, Repr

/-- How an extraction ends without claims. -/
inductive ExtractFault where
  | rejected (rejection : AuthRejection)
  | panicked
deriving DecidableEq, Repr

def rejectionOf : Fault → ExtractFault
  | .error (.expired _) => .rejected .expired
  | .error _ => .rejected .invalid
  | .panicked => .panicked

section
variable {L : Crates}

/-- `MultiJwt`: the manager and the sources are extensions of the request. -/
def fromRequestParts (manager : Option (TokenManager L)) (config : Option (List AuthSource)) (parts : Parts) (now : Nat) :
    Except ExtractFault TokenClaims :=
  match manager, config with
  | some manager, some sources =>
    match selectToken sources parts with
    | some token => (manager.verify now (String.ofList token)).mapError rejectionOf
    | none => .error (.rejected .missingHeader)
  | _, _ => .error (.rejected .missingManager)

end

/-! ## What a source carries -/

/-- The value of the first of the pairs that has the name. -/
def valueOf (name : List Char) (pairs : List (List Char)) : Option (List Char) :=
  ((pairs.filterMap (splitOnce '=')).find? (fun pair => decide (pair.1 = name))).map Prod.snd

namespace AuthSource

/-- What the source carries in the request, read by exact names. -/
def carries (parts : Parts) : AuthSource → Option (List Char)
  | bearer =>
    (parts.authorization.head?.bind toStr).bind (fun value =>
      match splitOnce ' ' value with
      | some (scheme, token) => if eqIgnoreAsciiCase scheme "bearer".toList then some (trimStart token) else none
      | none => none)
  | cookie name => (parts.cookie.head?.bind toStr).bind (fun raw => valueOf name ((raw.splitOn ';').map trimText))
  | query name => parts.query.bind (fun query => valueOf name (query.splitOn '&'))

/-- A name that can be that of a cookie or a parameter. -/
def Named : AuthSource → Prop
  | bearer => True
  | cookie name => '=' ∉ name ∧ ';' ∉ name ∧ '&' ∉ name
  | query name => '=' ∉ name ∧ ';' ∉ name ∧ '&' ∉ name

end AuthSource

open AuthSource

/-- The token of the first source that carries a non-empty one. -/
def firstToken (sources : List AuthSource) (parts : Parts) : Option (List Char) :=
  (sources.filterMap (AuthSource.carries parts)).find? (fun token => decide (token ≠ []))

/-- A pair starts with the name and an equals sign exactly when that is its name. -/
theorem isPrefixOf?_eq_some_iff {name pair value : List Char} (hname : '=' ∉ name) :
    (name ++ ['=']).isPrefixOf? pair = some value ↔ splitOnce '=' pair = some (name, value) := by
  rw [List.isPrefixOf?_eq_some_iff_append_eq, splitOnce_eq_some_iff, List.append_assoc, List.singleton_append]
  exact ⟨fun h => ⟨hname, h.symm⟩, fun h => h.2.symm⟩

/-- So the first pair that starts so is the first that has the name. -/
theorem head?_filterMap_eq_valueOf {name : List Char} (hname : '=' ∉ name) (pairs : List (List Char)) :
    (pairs.filterMap (fun pair => (name ++ ['=']).isPrefixOf? pair)).head? = valueOf name pairs := by
  induction pairs with
  | nil => rfl
  | cons pair pairs ih =>
    unfold valueOf at ih ⊢
    cases hvalue : (name ++ ['=']).isPrefixOf? pair with
    | some value =>
      have hpair := (isPrefixOf?_eq_some_iff hname).1 hvalue
      simp [hvalue, hpair]
    | none =>
      rw [List.filterMap_cons_none hvalue, ih]
      cases hsplit : splitOnce '=' pair with
      | none => rw [List.filterMap_cons_none hsplit]
      | some parts =>
        obtain ⟨front, back⟩ := parts
        have hother : front ≠ name := by
          rintro rfl
          rw [(isPrefixOf?_eq_some_iff hname).2 hsplit] at hvalue
          cases hvalue
        simp [hsplit, hother]

/-- A source has what it carries, but for an empty bearer token. -/
theorem extractToken_eq {source : AuthSource} (hnamed : source.Named) (parts : Parts) :
    extractToken source parts =
      (source.carries parts).filter (fun token => decide (source ≠ .bearer ∨ token ≠ [])) := by
  cases source with
  | bearer =>
    unfold extractToken AuthSource.carries
    cases parts.authorization.head?.bind toStr with
    | none => rfl
    | some value =>
      unfold bearerToken
      simp only [Option.bind_some]
      cases splitOnce ' ' value with
      | none => rfl
      | some split =>
        obtain ⟨scheme, token⟩ := split
        dsimp only
        cases eqIgnoreAsciiCase scheme "bearer".toList with
        | false => rfl
        | true => cases htoken : trimStart token <;> simp [Option.filter]
  | cookie name =>
    unfold extractToken AuthSource.carries
    cases parts.cookie.head?.bind toStr with
    | none => rfl
    | some raw =>
      simp only [Option.bind_some, head?_filterMap_eq_valueOf hnamed.1]
      cases valueOf name ((raw.splitOn ';').map trimText) <;> simp [Option.filter]
  | query name =>
    unfold extractToken AuthSource.carries valueOf
    cases parts.query with
    | none => rfl
    | some query =>
      simp only [Option.bind_some]
      cases (((query.splitOn '&').filterMap (splitOnce '=')).find? (fun pair => decide (pair.1 = name))).map Prod.snd <;>
        simp [Option.filter]

/-- No cookie and no parameter with an empty value comes before the first token there is. -/
def NoneEmptyFirst (sources : List AuthSource) (parts : Parts) : Prop :=
  ∀ front source back, sources = front ++ source :: back →
    (∀ earlier ∈ front, ∀ token, earlier.carries parts = some token → token = []) → source ≠ .bearer →
      source.carries parts ≠ some []

theorem firstToken_cons_of_ne {source : AuthSource} {parts : Parts} {token : List Char}
    (hcarries : source.carries parts = some token) (hne : token ≠ []) (sources : List AuthSource) :
    firstToken (source :: sources) parts = some token := by
  simp [firstToken, hcarries, hne]

/-- A source without a token is passed over. -/
theorem firstToken_cons {source : AuthSource} {parts : Parts}
    (hempty : ∀ token, source.carries parts = some token → token = []) (sources : List AuthSource) :
    firstToken (source :: sources) parts = firstToken sources parts := by
  unfold firstToken
  cases hcarries : source.carries parts with
  | none => rw [List.filterMap_cons_none hcarries]
  | some token => simp [hcarries, hempty token hcarries]

theorem firstToken_ne_nil {sources : List AuthSource} {parts : Parts} : firstToken sources parts ≠ some [] := by
  intro h
  have hfound := List.find?_some h
  simp at hfound

theorem firstToken_eq_none_iff {sources : List AuthSource} {parts : Parts} :
    firstToken sources parts = none ↔ ∀ source ∈ sources, ∀ token, source.carries parts = some token → token = [] := by
  unfold firstToken
  rw [List.find?_eq_none]
  constructor
  · intro h source hsource token hcarries
    by_contra hne
    exact h token (List.mem_filterMap.2 ⟨source, hsource, hcarries⟩) (decide_eq_true hne)
  · intro h token htoken hne
    obtain ⟨source, hsource, hcarries⟩ := List.mem_filterMap.1 htoken
    exact of_decide_eq_true hne (h source hsource token hcarries)

/-- A source with a token settles the condition for those behind it. -/
theorem noneEmptyFirst_cons_of_ne {source : AuthSource} {parts : Parts} {token : List Char}
    (hcarries : source.carries parts = some token) (hne : token ≠ []) (sources : List AuthSource) :
    NoneEmptyFirst (source :: sources) parts := by
  intro front source' back hsplit hfront _
  cases front with
  | nil =>
    cases hsplit
    rw [hcarries]
    exact fun h => hne (Option.some.inj h)
  | cons head front =>
    cases hsplit
    exact absurd (hfront source List.mem_cons_self token hcarries) hne

theorem noneEmptyFirst_cons {source : AuthSource} {parts : Parts}
    (hempty : ∀ token, source.carries parts = some token → token = [])
    (hhead : source ≠ .bearer → source.carries parts ≠ some []) (sources : List AuthSource) :
    NoneEmptyFirst (source :: sources) parts ↔ NoneEmptyFirst sources parts := by
  constructor
  · intro h front source' back hsplit hfront
    refine h (source :: front) source' back (by rw [hsplit]; rfl) (fun earlier hearlier => ?_)
    rcases List.mem_cons.1 hearlier with rfl | hearlier
    · exact hempty
    · exact hfront earlier hearlier
  · intro h front source' back hsplit hfront hbearer
    cases front with
    | nil =>
      cases hsplit
      exact hhead hbearer
    | cons head front =>
      cases hsplit
      exact h front source' back rfl (fun earlier hearlier => hfront earlier (List.mem_cons_of_mem _ hearlier)) hbearer

/-- **The first source with anything has the first token exactly when no empty value is in the way.** -/
theorem selectToken_eq_iff {sources : List AuthSource} (hnamed : ∀ source ∈ sources, source.Named) (parts : Parts) :
    selectToken sources parts = firstToken sources parts ↔ NoneEmptyFirst sources parts := by
  induction sources with
  | nil => exact ⟨fun _ front source back hsplit => by simp at hsplit, fun _ => rfl⟩
  | cons source sources ih =>
    have hextract := extractToken_eq (hnamed source List.mem_cons_self) parts
    have hrest := ih (fun source' hsource' => hnamed source' (List.mem_cons_of_mem _ hsource'))
    unfold selectToken at hrest ⊢
    rw [List.findSome?_cons, hextract]
    by_cases htoken : ∃ token, source.carries parts = some token ∧ token ≠ []
    · -- the source settles it on both sides
      obtain ⟨token, hcarries, hne⟩ := htoken
      rw [firstToken_cons_of_ne hcarries hne]
      refine ⟨fun _ => noneEmptyFirst_cons_of_ne hcarries hne sources, fun _ => ?_⟩
      simp [hcarries, Option.filter, hne]
    · have hempty : ∀ token, source.carries parts = some token → token = [] :=
        fun token hcarries => by_contra (fun hne => htoken ⟨token, hcarries, hne⟩)
      rw [firstToken_cons hempty]
      by_cases hhead : source ≠ .bearer ∧ source.carries parts = some []
      · -- the empty value is what the code takes, and no token
        have hfilter : (source.carries parts).filter (fun token => decide (source ≠ .bearer ∨ token ≠ [])) = some [] := by
          simp [hhead.2, Option.filter, hhead.1]
        rw [hfilter]
        refine ⟨fun h => absurd h.symm firstToken_ne_nil, fun h => ?_⟩
        exact absurd hhead.2 (h [] source sources rfl (fun _ hmem => by cases hmem) hhead.1)
      · have hfilter : (source.carries parts).filter (fun token => decide (source ≠ .bearer ∨ token ≠ [])) = none := by
          cases hcarries : source.carries parts with
          | none => rfl
          | some token =>
            have hnil := hempty token hcarries
            subst hnil
            have hbearer : source = .bearer := by_contra (fun hne => hhead ⟨hne, hcarries⟩)
            simp [Option.filter, hbearer]
        rw [hfilter, noneEmptyFirst_cons hempty (fun hbearer hcarries => hhead ⟨hbearer, hcarries⟩)]
        exact hrest

section
variable {L : Crates}

/-- A request with a manager and sources is rejected for missing credentials exactly when nothing is selected. -/
theorem fromRequestParts_missing_iff (m : TokenManager L) (sources : List AuthSource) (parts : Parts) (now : Nat) :
    fromRequestParts (some m) (some sources) parts now = .error (.rejected .missingHeader) ↔
      selectToken sources parts = none := by
  unfold fromRequestParts
  dsimp only
  cases selectToken sources parts with
  | none => simp
  | some token =>
    dsimp only
    cases m.verify now (String.ofList token) with
    | ok claims => simp [Except.mapError]
    | error fault =>
      have hother : rejectionOf fault ≠ .rejected .missingHeader := by
        unfold rejectionOf
        split
        · simp
        · simp
        · simp
      simpa [Except.mapError] using hother

/-- The request is answered by the verification of the first token, and rejected when there is none. -/
structure VerifiesFirst (m : TokenManager L) (sources : List AuthSource) (parts : Parts) (now : Nat) : Prop where
  verified : selectToken sources parts = firstToken sources parts
  answer : ∀ token, firstToken sources parts = some token → fromRequestParts (some m) (some sources) parts now =
    (m.verify now (String.ofList token)).mapError rejectionOf
  missing : fromRequestParts (some m) (some sources) parts now = .error (.rejected .missingHeader) ↔
    ∀ source ∈ sources, ∀ token, source.carries parts = some token → token = []

/-- **The token verified is the first there is, exactly when no empty value is in the way**: an empty cookie or parameter
before every token is verified in its place. -/
theorem verifiesFirst_iff (m : TokenManager L) {sources : List AuthSource} (hnamed : ∀ source ∈ sources, source.Named)
    (parts : Parts) (now : Nat) : VerifiesFirst m sources parts now ↔ NoneEmptyFirst sources parts := by
  rw [← selectToken_eq_iff hnamed]
  refine ⟨fun h => h.verified, fun hselect => ⟨hselect, fun token htoken => ?_, ?_⟩⟩
  · unfold fromRequestParts
    dsimp only
    rw [hselect, htoken]
  · rw [fromRequestParts_missing_iff, hselect, firstToken_eq_none_iff]

end

/-! ## An empty cookie -/

def mwClaims : TokenClaims :=
  { sub := "018f6b3c-7e1a-7000-8000-000000000001", username := "alice", tokenType := .access, iat := 970, exp := 1000,
    iss := "kirino", jti := "jti-a", sid := none, roles := [], userId := none, tenantId := none, relayId := none,
    workspaceId := none, permissions := [], aud := none }

def mwManager : TokenManager (tableCrates true [("abc", mwClaims)]) := tableManager [("abc", mwClaims)]

/-- The sources of the documentation: the header, a cookie, a parameter. -/
def mwSources : List AuthSource := [.bearer, .cookie ['w', 's', 'a', 't'], .query ['t']]

/-- A request with the cookie string and the query `t=abc`. -/
def mwRequest (cookie : List Char) : Parts := ⟨[], [cookie.map (fun c => UInt8.ofNat c.toNat)], some ['t', '=', 'a', 'b', 'c']⟩

theorem mwSources_named : ∀ source ∈ mwSources, source.Named := by
  simp [mwSources, AuthSource.Named]

/-- A cookie whose name only begins like the one configured does not count. -/
theorem other_cookie_passed : VerifiesFirst mwManager mwSources (mwRequest ['w', 's', 'a', 't', '2', '=', 'x']) 980 :=
  (verifiesFirst_iff mwManager mwSources_named _ 980).2
    ((selectToken_eq_iff mwSources_named _).1 (by decide +kernel))

/-- **An empty cookie stands for the token behind it**: the request is rejected though the query carries a valid one. -/
theorem empty_cookie_rejected :
    fromRequestParts (some mwManager) (some mwSources) (mwRequest ['w', 's', 'a', 't', '=']) 980 =
        .error (.rejected .invalid) ∧
      firstToken mwSources (mwRequest ['w', 's', 'a', 't', '=']) = some ['a', 'b', 'c'] ∧
      mwManager.verify 980 "abc" = .ok mwClaims := by
  refine ⟨?_, ?_, ?_⟩
  · rfl
  · decide +kernel
  · rfl

end Session
end Kirino

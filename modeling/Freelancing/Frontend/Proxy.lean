import Freelancing.JsString
import Freelancing.UrlPath

/-!
# The browser proxy

`frontend/src/lib/server/proxy-policy.ts` checks the parts of a path as they are, while
`frontend/src/lib/server/backend.ts` sends what the URL parser makes of them and the backend
percent-decodes that. What the backend is asked for is what the decoded pieces of the parts lead to
(`proxy_fetched`); the policy holds of it if the pieces that are left spell no blocked route
(`proxy_inPolicy_iff`).
-/

namespace Frontend

open JsString (text scalars)
open UrlPath (bytes)

/-! ## The policy -/

def BLOCKED_PREFIXES : List JsString :=
  [text "auth/login", text "auth/register", text "auth/refresh", text "payments/webhooks/"]

/-- `parts.join("/")`. -/
def joinParts (parts : List JsString) : JsString := (text "/").intercalate parts

def isProxyPathAllowed (parts : List JsString) : Bool :=
  if parts.length = 0 || parts.any
    (fun part => part.isEmpty || part = text "." || part = text "..") then
    false
  else
    let path := joinParts parts
    !BLOCKED_PREFIXES.any fun blocked => path = blocked || blocked.isPrefixOf path

/-! ## The request -/

inductive Proxied
  | response (status : Nat) (code message : String)
  /-- The path of the URL that is fetched. -/
  | fetched (pathname : List UInt8)
  | thrown (message : String)
  deriving DecidableEq

/-- `backendFetch`. The URL of a path that is rooted at `/api/v1/` is one of the backend's
origin. -/
def backendFetch (path : JsString) : Proxied :=
  if !(text "/api/v1/").isPrefixOf path then .thrown "Backend path must be rooted at /api/v1/"
  else match UrlPath.pathname (scalars path) with
    | some pathname => .fetched pathname
    | none => .thrown "Invalid URL"

def proxy (parts : List JsString) : Proxied :=
  if !isProxyPathAllowed parts then
    .response 404 "proxy_path_blocked" "Route is not available through the browser proxy."
  else backendFetch (text "/api/v1/" ++ joinParts parts)

/-! ## What it is for -/

/-- The routes that are not for browsers. -/
def IsBlocked (route : List UInt8) : Prop :=
  route ∈ [bytes "auth/login", bytes "auth/register", bytes "auth/refresh"] ∨
    bytes "payments/webhooks/" <+: route

/-- The path, decoded, is one under `/api/v1/` that is not blocked. -/
def InPolicy (path : List UInt8) : Prop :=
  ∃ route, path = bytes "/api/v1/" ++ route ∧ ¬ IsBlocked route

/-- The proxy asks the backend for a path that the policy allows. -/
def KeepsPolicy (parts : List JsString) : Prop :=
  ∃ pathname, proxy parts = .fetched pathname ∧ InPolicy (UrlPath.decode pathname)

/-! ## What the parts spell -/

/-- The text of the parts without blanks at the end, tabs and line breaks. -/
def spelled (parts : List JsString) : List Char :=
  ((scalars (joinParts parts)).rdropWhile UrlPath.isC0Space).filter fun c =>
    !UrlPath.isTabOrNewline c

/-- The moves that the decoded pieces of the parts stand for. -/
def partMoves (parts : List JsString) : List (UrlPath.Move (List UInt8)) :=
  UrlPath.moves ((UrlPath.pieces (spelled parts)).map fun piece =>
    UrlPath.decode (UrlPath.utf8 piece))

def root : List (List UInt8) := [bytes "api", bytes "v1"]

/-- The pieces that are left spell a route that is not blocked. Where they climb out of `/api/v1/`,
they spell the way back first. -/
def SpellsAllowed (parts : List JsString) : Prop :=
  ∃ route, UrlPath.serialize (UrlPath.left (partMoves parts)) =
      UrlPath.serialize (root.drop (root.length - UrlPath.climb (partMoves parts))) ++
      bytes "/" ++ route ∧
    ¬ IsBlocked route

variable {parts : List JsString}

theorem clean_root (s : List Char) : UrlPath.clean ("/api/v1/".toList ++ s) =
    "/api/v1/".toList ++ (s.rdropWhile UrlPath.isC0Space).filter fun c =>
      !UrlPath.isTabOrNewline c := by
  have hfront : ("/api/v1/".toList ++ s).dropWhile UrlPath.isC0Space = "/api/v1/".toList ++ s := rfl
  have hroot : "/api/v1/".toList.reverse.dropWhile UrlPath.isC0Space =
      "/api/v1/".toList.reverse := rfl
  have hback : ("/api/v1/".toList ++ s).rdropWhile UrlPath.isC0Space =
      "/api/v1/".toList ++ s.rdropWhile UrlPath.isC0Space := by
    unfold List.rdropWhile
    rw [List.reverse_append, List.dropWhile_append]
    by_cases h : (s.reverse.dropWhile UrlPath.isC0Space).isEmpty = true
    · rw [if_pos h, hroot, List.isEmpty_iff.1 h]
      simp
    · rw [if_neg h]
      simp
  rw [UrlPath.clean, hfront, hback, List.filter_append]
  rfl

theorem scalars_root (s : JsString) :
    scalars (text "/api/v1/" ++ s) = "/api/v1/".toList ++ scalars s := by
  have hunits : ∀ c ∈ text "/api/v1/", JsString.isHighSurrogate c = false := by
    simp [text, JsString.isHighSurrogate]
  rw [JsString.scalars_append hunits]
  rfl

theorem pieces_root (s : List Char) :
    UrlPath.pieces ("api/v1/".toList ++ s) = "api".toList :: "v1".toList :: UrlPath.pieces s := by
  have h1 := UrlPath.pieces_append_slash (s := "api".toList) (by simp [UrlPath.isSlash])
      ("v1/".toList ++ s)
  have h2 := UrlPath.pieces_append_slash (s := "v1".toList) (by simp [UrlPath.isSlash]) s
  rw [← h2]
  exact h1

/-- The path that the backend is asked for: what is left of the root and of the pieces. -/
theorem proxy_fetched (h : isProxyPathAllowed parts = true) :
    ∃ pathname, proxy parts = .fetched pathname ∧
    UrlPath.decode pathname =
      UrlPath.serialize (root.take (root.length - UrlPath.climb (partMoves parts))) ++
        UrlPath.serialize (UrlPath.left (partMoves parts)) := by
  have hrooted : (text "/api/v1/").isPrefixOf (text "/api/v1/" ++ joinParts parts) = true := by
    simp
  have hpath : UrlPath.pathname (scalars (text "/api/v1/" ++ joinParts parts)) =
      some (UrlPath.serialize (UrlPath.pathState [] [] ("api/v1/".toList ++ spelled parts))) := by
    rw [UrlPath.pathname, scalars_root, clean_root]
    rfl
  have hmoves : ∀ ds, ds ≠ [] → UrlPath.moves (bytes "api" :: bytes "v1" :: ds) =
      .into (bytes "api") :: .into (bytes "v1") :: UrlPath.moves ds := by
    intro ds hds
    cases ds with
    | nil => exact absurd rfl hds
    | cons d ds => rfl
  refine ⟨UrlPath.serialize (UrlPath.pathState [] [] ("api/v1/".toList ++ spelled parts)), ?_, ?_⟩
  · rw [proxy, h, backendFetch, hrooted, hpath]
    rfl
  · rw [UrlPath.decode_pathState, pieces_root, List.map_cons, List.map_cons]
    have hds : (UrlPath.pieces (spelled parts)).map
        (fun p => UrlPath.decode (UrlPath.utf8 p)) ≠ [] := by
      simpa using UrlPath.pieces_ne_nil (spelled parts)
    have hwalk := UrlPath.walk_eq root (partMoves parts)
    rw [← UrlPath.serialize_append, ← hwalk]
    exact congrArg (fun ms => UrlPath.serialize (UrlPath.walk [] ms)) (hmoves _ hds)

/-- **The proxy stays inside its policy exactly if the pieces that are left spell an allowed
route.** -/
theorem proxy_inPolicy_iff (h : isProxyPathAllowed parts = true) :
    KeepsPolicy parts ↔ SpellsAllowed parts := by
  obtain ⟨pathname, hp, hd⟩ := proxy_fetched h
  have hroot : bytes "/api/v1/" =
      UrlPath.serialize (root.take (root.length - UrlPath.climb (partMoves parts))) ++
      (UrlPath.serialize (root.drop (root.length - UrlPath.climb (partMoves parts))) ++
          bytes "/") := by
    rw [← List.append_assoc, ← UrlPath.serialize_append, List.take_append_drop]
    rfl
  have hkeeps : KeepsPolicy parts ↔ InPolicy (UrlPath.decode pathname) := by
    constructor
    · intro hk
      obtain ⟨pathname', hp', hin⟩ := hk
      rw [hp] at hp'
      cases hp'
      exact hin
    · intro hin
      exact ⟨pathname, hp, hin⟩
  rw [hkeeps, InPolicy, SpellsAllowed]
  simp only [hd, hroot, List.append_assoc, List.append_cancel_left_eq]

theorem proxy_inPolicy_projects :
    isProxyPathAllowed [text "projects", text "%2e", text "7"] = true ∧
      (KeepsPolicy [text "projects", text "%2e", text "7"] ↔
        SpellsAllowed [text "projects", text "%2e", text "7"]) :=
  ⟨by decide, proxy_inPolicy_iff (by decide)⟩

/-- Escaped dots take a part away, and a login is left. -/
theorem proxy_reaches_login : ¬ ∀ parts, isProxyPathAllowed parts = true → KeepsPolicy parts := by
  intro hall
  obtain ⟨pathname, hp, route, hroute, hblocked⟩ :=
    hall [text "x", text "%2e%2e", text "auth", text "login"] (by decide)
  have hlogin : proxy [text "x", text "%2e%2e", text "auth", text "login"] =
      .fetched (bytes "/api/v1/auth/login") := by decide
  rw [hlogin] at hp
  cases hp
  have hdecode : UrlPath.decode (bytes "/api/v1/auth/login") = bytes "/api/v1/" ++
      bytes "auth/login" := by
    decide
  rw [hdecode, List.append_cancel_left_eq] at hroute
  rw [← hroute] at hblocked
  exact hblocked (.inl List.mem_cons_self)

end Frontend

import GoffyOs.Python.Words

/-!
# Splitting URLs: `urllib.parse.urlsplit`

A URL is split without being checked, but its network location is: its brackets have to belong together
around an IP literal, and its normal form NFKC must not have separators that it had not itself. The check
of the literal and the normal form are parameters. `urlsplit_isSome_iff` says which URLs can be split.
-/

namespace Python

structure SplitResult where
  scheme : Str
  netloc : Str
  path : Str
  query : Str
  fragment : Str
  deriving DecidableEq

/-- `_WHATWG_C0_CONTROL_OR_SPACE`. -/
def isC0OrSpace (c : Char) : Bool := c.toNat ≤ 0x20

/-- `_UNSAFE_URL_BYTES_TO_REMOVE`. -/
def isUnsafeInUrl (c : Char) : Bool := c = '\t' || c = '\r' || c = '\n'

/-- `scheme_chars`. -/
def isSchemeChar (c : Char) : Bool := c.isAlphanum || c = '+' || c = '-' || c = '.'

/-- The scheme, in small letters, and what follows it. -/
def splitScheme (url : Str) : Str × Str :=
  match partition url ':' with
  | (scheme, [], _) => ([], scheme)
  | (scheme, _ :: _, rest) =>
    if scheme.head?.any Char.isAlpha && scheme.all isSchemeChar then (lower scheme, rest) else ([], url)

def isNetlocEnd (c : Char) : Bool := c = '/' || c = '?' || c = '#'

/-- The network location, where there is one, and what follows it (`_splitnetloc`). -/
def splitNetloc : Str → Str × Str
  | '/' :: '/' :: url => (url.takeWhile (!isNetlocEnd ·), url.dropWhile (!isNetlocEnd ·))
  | url => ([], url)

/-- What is left of a URL to be split. -/
def cleanUrl (url : Str) : Str := (url.dropWhile isC0OrSpace).filter (!isUnsafeInUrl ·)

/-- The network location of a URL. -/
def netlocOf (url : Str) : Str := (splitNetloc (splitScheme (cleanUrl url)).2).1

section

variable (nfkc : Str → Str) (bracketsFit : Str → Bool)

/-- `_checknetloc`: the normal form has no separator, or it is the same. -/
def checkNetloc (netloc : Str) : Bool :=
  let bare := netloc.filter fun c => !"@:#?".toList.contains c
  netloc.all (·.toNat < 0x80) || nfkc bare = bare || "/?#@:".toList.all fun c => !(nfkc bare).contains c

/-- `urlsplit`; `none` is `ValueError`. -/
def urlsplit (url : Str) : Option SplitResult := do
  let (scheme, rest) := splitScheme (cleanUrl url)
  let (netloc, rest) := splitNetloc rest
  if netloc.contains '[' ≠ netloc.contains ']' then none
  if netloc.contains '[' && !bracketsFit netloc then none
  let (rest, _, fragment) := partition rest '#'
  let (path, _, query) := partition rest '?'
  if checkNetloc nfkc netloc then some ⟨scheme, netloc, path, query, fragment⟩ else none

/-- A network location with which `urlsplit` does not fail. -/
structure NetlocInOrder (netloc : Str) : Prop where
  brackets : '[' ∈ netloc ↔ ']' ∈ netloc
  host : '[' ∈ netloc → bracketsFit netloc = true
  normal : checkNetloc nfkc netloc = true

end

/-- What stands before the last `@` of the network location, where there is one. -/
def SplitResult.userinfo (r : SplitResult) : Option Str :=
  if r.netloc.contains '@' then some ((r.netloc.reverse.dropWhile (· ≠ '@')).drop 1).reverse else none

/-- `.username`. -/
def SplitResult.username (r : SplitResult) : Option Str := r.userinfo.map fun s => (partition s ':').1

/-- `.password`. -/
def SplitResult.password (r : SplitResult) : Option Str :=
  r.userinfo.bind fun s => if s.contains ':' then some (partition s ':').2.2 else none

theorem urlsplit_isSome_iff {nfkc : Str → Str} {bracketsFit : Str → Bool} {url : Str} :
    (urlsplit nfkc bracketsFit url).isSome = true ↔ NetlocInOrder nfkc bracketsFit (netlocOf url) := by
  have hbrackets : ∀ {netloc : Str}, netloc.contains '[' ≠ netloc.contains ']' ↔
      ¬ ('[' ∈ netloc ↔ ']' ∈ netloc) := by
    intro netloc
    rw [ne_eq, Bool.eq_iff_iff, List.contains_iff_mem, List.contains_iff_mem]
  rw [urlsplit, netlocOf]
  generalize splitScheme (cleanUrl url) = r
  obtain ⟨scheme, rest⟩ := r
  dsimp only
  generalize splitNetloc rest = r
  obtain ⟨netloc, rest⟩ := r
  dsimp only
  by_cases hsame : '[' ∈ netloc ↔ ']' ∈ netloc
  case neg =>
    rw [if_pos (hbrackets.2 hsame)]
    exact iff_of_false Bool.false_ne_true fun h => hsame h.brackets
  rw [if_neg fun h => hbrackets.1 h hsame]
  by_cases hhost : '[' ∈ netloc ∧ bracketsFit netloc = false
  case pos =>
    have hcond : (netloc.contains '[' && !bracketsFit netloc) = true := by
      rw [hhost.2, Bool.not_false, Bool.and_true]
      exact List.contains_iff_mem.2 hhost.1
    rw [if_pos hcond]
    refine iff_of_false Bool.false_ne_true fun h => ?_
    rw [h.host hhost.1] at hhost
    cases hhost.2
  have hcond : ¬ (netloc.contains '[' && !bracketsFit netloc) = true := by
    rw [Bool.and_eq_true, List.contains_iff_mem, Bool.not_eq_true']
    exact hhost
  rw [if_neg hcond]
  have hfits : '[' ∈ netloc → bracketsFit netloc = true := fun h => by
    cases hfit : bracketsFit netloc with
    | true => rfl
    | false => exact absurd ⟨h, hfit⟩ hhost
  by_cases hcheck : checkNetloc nfkc netloc = true
  · refine iff_of_true ?_ ⟨hsame, hfits, hcheck⟩
    simp [hcheck]
  · refine iff_of_false ?_ fun h => hcheck h.normal
    simp [hcheck]

end Python

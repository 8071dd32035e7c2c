import AgentFlow.Files.IgnoreGlob
import AgentFlow.Files.Tree
import AgentFlow.Text.Blank

/-!
# Ignore files

An ignore file holds a pattern a line.  It says which files and directories below its own directory
are left out; the last pattern that stands for a path decides.  A directory that is left out is not
looked into.

* `.ignore` files count everywhere and before all others.
* `.gitignore` files and `.git/info/exclude` count from a directory with `.git` on downwards.
-/

namespace AgentFlow.Files

structure IgnoreRule where
  glob : IgnoreGlob
  /-- Whether what the pattern stands for is kept, whatever other rules say. -/
  keeps : Bool
  onlyDirectories : Bool

inductive Verdict where
  | left
  | kept
  deriving DecidableEq

namespace IgnoreRule

/-- A line without the blanks at its end, which an escaped blank protects. -/
def trimLine (line : String) : String :=
  if Text.endsWith line "\\ " then line else Text.trimEnd line

def startsWithSteps (cs : List Char) : Bool := "**/".toList.isPrefixOf cs || cs == ['*', '*']

/-- The text of a pattern as it is matched.  A pattern without slashes stands for names at any
depth; one that ends with any steps stands for what is inside of a directory. -/
def fullPattern (anchored : Bool) (cs : List Char) : List Char :=
  let anywhere := !anchored && !cs.contains '/' && !startsWithSteps cs
  let cs := if anywhere then "**/".toList ++ cs else cs
  if "/**".toList.isSuffixOf cs then cs ++ "/*".toList else cs

/-- The pattern without a slash at its end, and whether there was one. -/
def dropSlash (cs : List Char) : List Char × Bool :=
  match cs.reverse with
  | '/' :: '\\' :: rest => (rest.reverse, true)
  | '/' :: rest => (rest.reverse, true)
  | _ => (cs, false)

def ofLine? (line : String) : Option IgnoreRule := do
  if Text.startsWith line "#" then none
  let cs := (trimLine line).toList
  if cs.isEmpty then none
  let (keeps, anchored, cs) :=
    match cs with
    | '\\' :: '!' :: rest => (false, false, '!' :: rest)
    | '\\' :: '#' :: rest => (false, false, '#' :: rest)
    | '!' :: '/' :: rest => (true, true, rest)
    | '!' :: rest => (true, false, rest)
    | '/' :: rest => (false, true, rest)
    | _ => (false, false, cs)
  let (cs, onlyDirectories) := dropSlash cs
  let glob ← IgnoreGlob.parse? (String.ofList (fullPattern anchored cs))
  some ⟨glob, keeps, onlyDirectories⟩

def applies (r : IgnoreRule) (path : String) (isDirectory : Bool) : Bool :=
  (!r.onlyDirectories || isDirectory) && r.glob.accepts path

end IgnoreRule

/-- The lines of bytes, up to the first one that is no text. -/
def readableLines (content : ByteArray) : List String :=
  let pieces := Text.splitWhere (· == 0x0a) content.toList
  let texts := pieces.map fun bytes => String.fromUTF8? ⟨bytes.toArray⟩
  ((texts.takeWhile Option.isSome).filterMap id).map fun line =>
    String.ofList (Text.dropReturn line.toList)

/-- A text without the byte order marks at its start. -/
def dropMark (line : String) : String := String.ofList (line.toList.dropWhile (· == '\ufeff'))

def ignoreRules (content : ByteArray) : List IgnoreRule :=
  match readableLines content with
  | [] => []
  | first :: rest => (dropMark first :: rest).filterMap IgnoreRule.ofLine?

def judge (rules : List IgnoreRule) (path : String) (isDirectory : Bool) : Option Verdict :=
  (rules.reverse.find? (·.applies path isDirectory)).map fun r => if r.keeps then .kept else .left

/-- The rules of a directory for what lies below it. -/
structure IgnoreScope where
  place : Place
  own : List IgnoreRule
  shared : List IgnoreRule
  excluded : List IgnoreRule
  /-- Whether the rules that are shared through a repository start here. -/
  isRepository : Bool

namespace IgnoreScope

def rulesAt (t : Tree) (p : Place) (names : List String) : List IgnoreRule :=
  match t.get? (p ++ names) with
  | some (.file content) => ignoreRules content
  | _ => []

def ofDirectory (t : Tree) (p : Place) : IgnoreScope :=
  { place := p
    own := rulesAt t p [".ignore"]
    shared := rulesAt t p [".gitignore"]
    excluded := rulesAt t p [".git", "info", "exclude"]
    isRepository := (t.get? (p ++ [".git"])).isSome || (t.get? (p ++ [".jj"])).isSome }

/-- Whether a directory has any rules or starts a repository. -/
def counts (s : IgnoreScope) : Bool :=
  !s.own.isEmpty || !s.shared.isEmpty || !s.excluded.isEmpty || s.isRepository

/-- The scopes of a tree that count, the outer ones first. -/
def all (t : Tree) : List IgnoreScope :=
  (([] : Place) :: t.entries.entries.filterMap fun (p, e) =>
    match e with
    | .directory => some p
    | .file _ => none).map (ofDirectory t) |>.filter counts

def seen (s : IgnoreScope) (p : Place) : String := "/".intercalate (p.drop s.place.length)

/-- The scopes from the nearest one to the one where the repository starts. -/
def insideRepository : List IgnoreScope → List IgnoreScope
  | [] => []
  | s :: rest => if s.isRepository then [s] else s :: insideRepository rest

/-- Whether the rules leave a place out.  The nearest scope that has something to say decides. -/
def leavesOut (scopes : List IgnoreScope) (p : Place) (isDirectory : Bool) : Bool :=
  let around :=
    (scopes.filter fun s => s.place.length < p.length && s.place.isPrefixOf p).reverse
  let ask (scopes : List IgnoreScope) (rules : IgnoreScope → List IgnoreRule) : Option Verdict :=
    scopes.findSome? fun s => judge (rules s) (s.seen p) isDirectory
  let inside := if around.any (·.isRepository) then insideRepository around else []
  (ask around own <|> ask inside shared <|> ask inside excluded) == some .left

end IgnoreScope

end AgentFlow.Files

import Mathlib.Data.List.Basic
import Mathlib.Tactic.Common

/-!
# The paths of the media files

`ResolveLocalPath` of `bridge/media/download.go` and `ExpandTilde` of
`bridge/media/helpers.go`, with the functions of `path/filepath` that they call,
as these are on Unix.
-/

namespace WhatsAppMcp.Bridge.Media

/-! ## Lexical processing -/

/-- The elements between the slashes. -/
def elements (path : String) : List String := (path.toList.splitOn '/').map String.ofList

/-- The path starts with a slash. -/
def rooted (path : String) : Bool := path.toList.head? = some '/'

/-- `Clean` takes one element more.  The elements before it are kept in reverse. -/
def cleanElement (rooted : Bool) (kept : List String) (element : String) : List String :=
  if element = "" ∨ element = "." then kept
  else if element = ".." then
    match kept with
    | [] => if rooted then [] else [".."]
    | last :: rest => if last = ".." then ".." :: kept else rest
  else element :: kept

/-- `filepath.Clean`. -/
def clean (path : String) : String :=
  let kept := (elements path).foldl (cleanElement (rooted path)) []
  let joined := "/".intercalate kept.reverse
  if rooted path then "/" ++ joined else if kept = [] then "." else joined

/-- `filepath.Join`. -/
def join (elems : List String) : String :=
  match elems.dropWhile (· = "") with
  | [] => ""
  | rest => clean ("/".intercalate rest)

/-- `filepath.Base`. -/
def base (path : String) : String :=
  if path = "" then "." else (((elements path).filter (· ≠ "")).getLast?).getD "/"

/-- `filepath.Dir`. -/
def dir (path : String) : String :=
  clean (String.ofList (path.toList.reverse.dropWhile (· ≠ '/')).reverse)

/-- The directories that `os.MkdirAll` makes where they are missing: the path, and
each one on the way to it. -/
def directories (path : String) : List String :=
  let els := (elements path).filter (· ≠ "")
  (List.range els.length).map fun k =>
    (if rooted path then "/" else "") ++ "/".intercalate (els.take (k + 1))

/-! ## The paths of the bridge -/

/-- `sanitizeJID`. -/
def sanitizeJid (jid : String) : String :=
  String.ofList (jid.toList.map fun c => if c ∈ [':', '/', '\\', ' '] then '_' else c)

/-- `ResolveLocalPath`. -/
def resolveLocalPath (outDir chatJid filename : String) : String :=
  let outDir := if "/media".toList.isSuffixOf outDir.toList then outDir else join [outDir, "media"]
  join [outDir, sanitizeJid chatJid, base filename]

/-- `ExpandTilde`, where `os.UserHomeDir` gives a directory or fails. -/
def expandTilde (home : Option String) (path : String) : String :=
  if "~/".toList.isPrefixOf path.toList then
    match home with
    | none => path
    | some home => join [home, String.ofList (path.toList.drop 2)]
  else path

example : resolveLocalPath "/data/" "49:1@g.us" "../x/scan.pdf" = "/data/media/49_1@g.us/scan.pdf" := by
  decide +kernel

example : resolveLocalPath "out" "49@g.us" ".." = "out/media" := by decide +kernel

example : directories "/data/media/49@g.us" = ["/data", "/data/media", "/data/media/49@g.us"] := by
  decide +kernel

end WhatsAppMcp.Bridge.Media

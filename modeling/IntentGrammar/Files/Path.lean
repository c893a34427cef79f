import IntentGrammar.Text.Cut

/-!
# Paths

A path is a text of names with slashes between them.  An empty name and a single dot stay where
they are, two dots lead to the directory above, and a slash in front starts at the root.  What is
computed here depends on the text alone, and what is left of a path is left as it was written.
-/

namespace IntentGrammar.Path

open Text

/-! ### Segments -/

/-- What stands before the segments, and the rest: a slash that means the root, or a dot that means
the current directory. -/
def splitLead : List Char → List Char × List Char
  | '/' :: cs => (['/'], cs)
  | ['.'] => (['.'], [])
  | '.' :: '/' :: cs => (['.'], '/' :: cs)
  | cs => ([], cs)

/-- A segment that stays where it is. -/
def isIdle (segment : List Char) : Bool := segment = [] || segment = ['.']

/-- The segments of a text from the last to the first, without idle ones at the end. -/
def segmentsBack (body : List Char) : List (List Char) := (cut '/' body).reverse.dropWhile isIdle

/-- The text of segments that are listed from the last to the first. -/
def textBack (lead : List Char) (segments : List (List Char)) : String :=
  String.ofList (lead ++ ['/'].intercalate segments.reverse)

/-! ### Parents -/

/-- A directory and those above it, from the inside out, for segments that are listed from the last
to the first. -/
def outward (lead : List Char) : List (List Char) → List String
  | [] => if lead = ['.'] then [".", ""] else [String.ofList lead]
  | segment :: rest =>
    if isIdle segment then outward lead rest
    else textBack lead (segment :: rest) :: outward lead rest

/-- The directories above a path, from the inside out.  Those of a relative path end with the empty
path. -/
def parents (path : String) : List String :=
  let (lead, body) := splitLead path.toList
  match segmentsBack body with
  | [] => if lead = ['.'] then [""] else []
  | _ :: rest => outward lead rest

/-- The directory of a path; the root and the empty path have none. -/
def parent? (path : String) : Option String := (parents path).head?

/-! ### Names -/

/-- The last name of a path, if it ends with one. -/
def fileName? (path : String) : Option (List Char) :=
  match segmentsBack (splitLead path.toList).2 with
  | [] => none
  | segment :: _ => if segment = ['.', '.'] then none else some segment

/-- A name cut at its last dot, unless it has none or only one in front. -/
def splitName (name : List Char) : List Char × Option (List Char) :=
  match (cut '.' name).reverse with
  | last :: before :: rest =>
    let stem := ['.'].intercalate (before :: rest).reverse
    if stem = [] then (name, none) else (stem, some last)
  | _ => (name, none)

/-- The name without its extension. -/
def stem? (path : String) : Option String :=
  (fileName? path).map fun name => String.ofList (splitName name).1

/-- The part of the name behind its last dot. -/
def extension? (path : String) : Option String :=
  ((fileName? path).bind fun name => (splitName name).2).map String.ofList

/-- The path starts at the root. -/
def isAbsolute (path : String) : Bool := path.toList.head? = some '/'

/-- A path seen from a directory. -/
def join (directory path : String) : String :=
  if isAbsolute path || directory = "" then path
  else if directory.toList.getLast? = some '/' then directory ++ path
  else directory ++ "/" ++ path

/-! ### Steps -/

/-- A step on the way that a path describes. -/
inductive Step where
  | stay
  | up
  | down (name : String)
  deriving DecidableEq, Repr

/-- The step for a segment. -/
def Step.ofSegment (segment : List Char) : Step :=
  if isIdle segment then stay
  else if segment = ['.', '.'] then up
  else down (String.ofList segment)

/-- The steps of a path; a slash at the end is one more step that stays. -/
def steps (path : String) : List Step := (cut '/' path.toList).map .ofSegment

/-- The steps of a path up to the last one, and the last one, slashes at the end left aside. -/
def approach (path : String) : List Step × Step :=
  match (cut '/' path.toList).reverse.dropWhile List.isEmpty with
  | [] => ([], .stay)
  | segment :: rest => (rest.reverse.map .ofSegment, .ofSegment segment)

end IntentGrammar.Path

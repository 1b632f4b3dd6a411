import RedGreen.Text.Basic

/-!
# Paths of changed files

A path leads to production code unless one of its directories holds tests or its file is named
like a test.  Backslashes count as slashes, and empty components do not count.
-/

namespace RedGreen

namespace ChangedPath

def components (path : Text) : List Text :=
  (Text.splitOn '/' (Text.replaceEach '\\' '/' path)).filter fun part => !part.isEmpty

/-- Names of directories that hold tests, in small letters. -/
def testDirectories : List Text :=
  ["test", "tests", "testfixtures", "__tests__", "spec", "specs"]

/-- No name of a test directory has a letter outside ASCII, and no letter outside ASCII becomes
one of theirs, so lowering ASCII letters suffices. -/
def isTestDirectory (part : Text) : Bool := part.toLowerAscii.isOneOf testDirectories

def hasLineFeed (t : Text) : Bool := t.any fun c => c.val == 0x0A

/-- At least one character, and all of them on one line. -/
def isOneLine (t : Text) : Bool := !t.isEmpty && !hasLineFeed t

/-- A text without a line feed at its end. -/
def dropFinalLineFeed (t : Text) : Text := (Text.dropTail? [CodePoint.ofNat 0x0A] t).getD t

/-- What stands before the last point of a test file and behind the stem it tests. -/
def stemEndings : List Text := ["_test", "Test", "Tests", ".test", ".spec"]

/-- A stem with one of the endings, a point and an extension without points. -/
def hasTestEnding (name : Text) : Bool :=
  match Text.cutLast? '.' name with
  | none => false
  | some (front, extension) =>
    !extension.isEmpty &&
      stemEndings.any fun ending =>
        match Text.dropTail? ending front with
        | some stem => isOneLine stem
        | none => false

/-- The name of a file that holds tests or their configuration. -/
def isTestFile (name : Text) : Bool :=
  (match Text.dropLead? "test_" name with
   | some rest => isOneLine (dropFinalLineFeed rest)
   | none => false) ||
  hasTestEnding name || dropFinalLineFeed name = Text.ofString "conftest.py"

def isProduction (path : Text) : Bool :=
  match (components path).reverse with
  | [] => false
  | file :: directories => !directories.any isTestDirectory && !isTestFile file

def noneIsProduction (paths : List Text) : Bool := !paths.any isProduction

end ChangedPath

end RedGreen

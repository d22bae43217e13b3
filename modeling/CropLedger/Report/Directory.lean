import CropLedger.Report.Request
import CropLedger.Report.Workbook

/-!
# The reports directory

Finished reports are files in one directory. A file is written under an unfinished name and gets
its own name once it is complete, so what can be found is complete. Names are bytes, which need
not spell a text.

* `Directory.save`: writes a workbook;
* `Directory.newest`: the finished file of a request with the greatest name;
* `Directory.load`: what a file holds.
-/

namespace CropLedger

/-- What a file holds. -/
inductive FileContent
  | workbook (book : Workbook)
  | bytes (raw : Bytes)
  deriving DecidableEq

/-- What a name stands for. -/
inductive Entry
  | file (content : FileContent)
  | folder
  deriving DecidableEq

/-- Names and what they stand for. -/
abbrev Listing := List (Bytes × Entry)

/-- What is found in the place of the directory. -/
inductive Directory
  | missing
  | file
  | listing (entries : Listing)
  deriving DecidableEq

/-- Why files cannot be read or written. -/
inductive FileFault
  | notFound
  | alreadyExists
  | notDirectory
  | isDirectory
  deriving DecidableEq

/-- What a fault is called in a message. -/
def FileFault.message : FileFault → String
  | .notFound => "No such file or directory (os error 2)"
  | .alreadyExists => "File exists (os error 17)"
  | .notDirectory => "Not a directory (os error 20)"
  | .isDirectory => "Is a directory (os error 21)"

namespace Listing

/-- What a name stands for. -/
def find? (entries : Listing) (name : Bytes) : Option Entry := entries.lookup name

/-- The listing without a name. -/
def erase (entries : Listing) (name : Bytes) : Listing := entries.filter fun e => e.1 ≠ name

/-- The listing with a name that stands for something. -/
def insert (entries : Listing) (name : Bytes) (entry : Entry) : Listing :=
  entries.erase name ++ [(name, entry)]

/-- Writes a file, in place of one of the same name. -/
def write (entries : Listing) (name : Bytes) (content : FileContent) :
    Except FileFault Listing :=
  match entries.find? name with
  | some .folder => .error .isDirectory
  | _ => .ok (entries.insert name (.file content))

/-- Gives a file another name, in place of a file that had it. -/
def rename (entries : Listing) (old new : Bytes) : Except FileFault Listing :=
  match entries.find? old, entries.find? new with
  | none, _ => .error .notFound
  | some (.file _), some .folder => .error .isDirectory
  | some entry, _ => .ok ((entries.erase old).insert new entry)

end Listing

/-- Whether a name stands before another in the order of bytes, or is the same. -/
def nameLe : Bytes → Bytes → Bool
  | [], _ => true
  | _ :: _, [] => false
  | a :: as, b :: bs => if a = b then nameLe as bs else a < b

namespace Directory

/-- What is found in the directory, in the order of names, if it can be listed. -/
def contents? : Directory → Option Listing
  | .listing entries => some (entries.mergeSort fun a b => nameLe a.1 b.1)
  | _ => none

/-- The listing of the directory, which is made if there is nothing in its place. -/
def prepare : Directory → Except FileFault Listing
  | .missing => .ok []
  | .file => .error .alreadyExists
  | .listing entries => .ok entries

/-- The name of a file that is not finished. -/
def unfinished (name : Bytes) : Bytes := name ++ Utf8.encode ".part"

/-- Writes a file under its unfinished name, then renames it. A file that cannot be renamed is
removed. -/
def saveIn (name : Bytes) (book : Workbook) (entries : Listing) :
    Except FileFault Unit × Listing :=
  match entries.write (unfinished name) (.workbook book) with
  | .error fault => (.error fault, entries)
  | .ok written =>
    match written.rename (unfinished name) name with
    | .error fault => (.error fault, written.erase (unfinished name))
    | .ok renamed => (.ok (), renamed)

/-- Writes a workbook as a file of a name. -/
def save (name : String) (book : Workbook) (d : Directory) : Except FileFault Unit × Directory :=
  match d.prepare with
  | .error fault => (.error fault, d)
  | .ok entries =>
    let (result, entries) := saveIn (Utf8.encode name) book entries
    (result, .listing entries)

/-- The names that are texts. -/
def names (entries : Listing) : List String := entries.filterMap fun e => Utf8.decode? e.1

/-- The greater of two names, of which there may be none. -/
def later (latest : Option String) (name : String) : Option String :=
  match latest with
  | none => some name
  | some current => if current < name then some name else some current

/-- The greatest name of a finished file of a request. -/
def newestName? (r : ReportRequest) (entries : Listing) : Option String :=
  ((names entries).filter r.matchesName).foldl later none

end Directory

/-- Why no report is found. -/
inductive ResolveFault
  | notReady
  | files (fault : FileFault)
  deriving DecidableEq

/-- What a fault is called in a message. -/
def ResolveFault.message : ResolveFault → String
  | .notReady => "report is not ready yet"
  | .files fault => "failed to read reports directory: " ++ fault.message

namespace Directory

/-- The greatest name of a finished file of a request, if it is ready. -/
def newest (r : ReportRequest) : Directory → Except ResolveFault String
  | .missing => .error .notReady
  | .file => .error (.files .notDirectory)
  | .listing entries =>
    match newestName? r entries with
    | some name => .ok name
    | none => .error .notReady

/-- What a file of a name holds. -/
def load (name : String) : Directory → Except FileFault FileContent
  | .missing => .error .notFound
  | .file => .error .notDirectory
  | .listing entries =>
    match entries.find? (Utf8.encode name) with
    | some (.file content) => .ok content
    | some .folder => .error .isDirectory
    | none => .error .notFound

end Directory

end CropLedger

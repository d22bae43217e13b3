import CropLedger.Cache.Basic
import CropLedger.Cache.KeyServer

/-!
# The cache behind a key server

The calls of a cache as commands to a key server. Times are cut to seconds, of which there is at
least one. Dropping entries scans the names page by page, then deletes what was found in one
command. A first page that is refused is a failure; a later one ends the scan.

* `Remote.cache`: how a key server is called as a cache.
-/

namespace CropLedger.Remote

/-- The failure of a refused command. -/
def refused : CacheFault := .backend "refused"

/-- The bytes under a name. -/
def get (key : String) (s : KeyServer) : Except CacheFault (Option Bytes) × KeyServer :=
  match s.send (.get key) with
  | (true, s) => (.ok (s.entries.lookup key), s)
  | (false, s) => (.error refused, s)

/-- The seconds for which an entry is kept. -/
def seconds (ttl : Nat) : Nat := max (ttl / 1000) 1

/-- Keeps bytes under a name. -/
def set (key : String) (bytes : Bytes) (ttl : Nat) (s : KeyServer) :
    Except CacheFault Unit × KeyServer :=
  match s.send (.setex key (seconds ttl) bytes) with
  | (true, s) => (.ok (), s.insert key bytes)
  | (false, s) => (.error refused, s)

/-- The names found on pages after the first; a refused page ends the scan. -/
def scanOn (pattern : String) : Nat → List (List String) → KeyServer → List String × KeyServer
  | _, [], s => ([], s)
  | cursor, page :: pages, s =>
    match s.send (.scan cursor pattern) with
    | (true, s) =>
      let (found, after) := scanOn pattern (cursor + page.length) pages s
      (page.filter (s.matching pattern) ++ found, after)
    | (false, s) => ([], s)

/-- The names that match a pattern, page by page. -/
def scan (pattern : String) (s : KeyServer) : Except CacheFault (List String) × KeyServer :=
  let pages := s.paging (s.counts .scan) s.keys
  match s.send (.scan 0 pattern) with
  | (false, s) => (.error refused, s)
  | (true, s) =>
    let first := pages.headD []
    let (found, after) := scanOn pattern first.length (pages.drop 1) s
    (.ok (first.filter (s.matching pattern) ++ found), after)

/-- Deletes the entries of some names, at least one, and counts the ones there were. -/
def delete (keys : List String) (s : KeyServer) : Except CacheFault Nat × KeyServer :=
  match s.send (.del keys) with
  | (true, s) => (.ok (s.count keys), s.erase keys)
  | (false, s) => (.error refused, s)

/-- The pattern of the names that start with a text. -/
def pattern (label : String) : String := label ++ "*"

/-- Drops the entries whose names start with a text, and counts them. -/
def deletePrefix (label : String) (s : KeyServer) : Except CacheFault Nat × KeyServer :=
  match scan (pattern label) s with
  | (.error fault, s) => (.error fault, s)
  | (.ok [], s) => (.ok 0, s)
  | (.ok keys, s) => delete keys s

/-- How a key server is called as a cache. -/
def cache : Cache KeyServer := ⟨get, set, deletePrefix⟩

end CropLedger.Remote

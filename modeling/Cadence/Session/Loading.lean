import Cadence.Parse.File
import Cadence.Session.Archive
import Cadence.Session.Basic
import Cadence.Source.Map
import Cadence.Syntax.Render
import Cadence.Token.Scan

/-!
# Loading

The files of a unit are those that are asked for and those that they demand in turn. A file is
loaded at most once, right behind the one that demands it first. Paths in a file start at its
folder. A file that has faulty tokens is not parsed, so that its demands stay unknown.
-/
namespace Cadence

open Source (File FileName Map Path Span)
open Text (quoted)

/-- The wish for a file, possibly made at a place in another one. -/
structure FileRequest where
  path : Path
  origin : Option Span
  deriving DecidableEq, Repr

/-- What is loaded, and what came up. -/
structure Loading where
  map : Map
  /-- The normalized paths that were asked for. -/
  asked : List Path
  events : List Event
  files : List ParsedFile
  deriving BEq, Repr

namespace Loading

def start : Loading := ⟨.empty, [], [], []⟩

def say (loading : Loading) (events : List Event) : Loading :=
  { loading with events := loading.events ++ events }

/-- Take note of a normalized path that is asked for. -/
def ask (loading : Loading) (path : Path) : Loading :=
  say { loading with asked := path :: loading.asked }
    [.info ("loading " ++ quoted path.display)]

/-- There is no text to load. -/
def failed (request : FileRequest) (path : Path) (failure : ReadFailure) : Diagnostic :=
  let error := Diagnostic.error .e030 ("could not load the file " ++ quoted path.display)
  let located := match request.origin with
    | some span => error.pointAt span "loaded here"
    | none => error
  located.note failure.message

/-- The tokens of a file, one per line. -/
def tokenLines (lexed : Lexed) : List Event :=
  lexed.tokens.map fun token => .write (token.listing ++ "\n")

/-- The files that a file demands. -/
def demands (path : Path) (nodes : List Node) : List FileRequest :=
  let folder := path.parent?.getD (.ofString "")
  (nodes.filterMap Node.load?).map fun load =>
    ⟨folder.join (.ofString load.value), some load.span⟩

/-- Take a file into the map and say what comes up in its tokens. -/
def readTokens (options : SessionOptions) (loading : Loading) (name : FileName)
    (text : List Char) : Loading :=
  let lexed := Lexed.ofFile (loading.map.place name text)
  say { loading with map := loading.map.add name text }
    (lexed.diagnostics.map .report ++ if options.emitTokens then tokenLines lexed else [])

/-- Take the trees of a file and say what comes up in them. -/
def readTrees (options : SessionOptions) (loading : Loading) (file : File) (parsed : Parsed) :
    Loading :=
  say { loading with files := loading.files ++ [⟨file, parsed.nodes⟩] }
    (parsed.diagnostics.map .report ++
      if options.emitTrees then [.write (Node.displayAll parsed.nodes ++ "\n")] else [])

/-- Read the text of a path. The files that it demands come along. -/
def read (options : SessionOptions) (loading : Loading) (path : Path) (text : List Char) :
    Loading × List FileRequest :=
  let name := FileName.path path
  let file := loading.map.place name text
  let lexed := Lexed.ofFile file
  let loading := loading.readTokens options name text
  if lexed.tainted || options.haltsAfter .lexing then (loading, [])
  else
    let parsed := Parsed.ofTokens file lexed.tokens
    (loading.readTrees options file parsed, demands path parsed.nodes)

theorem asked_say {loading : Loading} {events : List Event} :
    (loading.say events).asked = loading.asked := rfl

theorem asked_ask {loading : Loading} {path : Path} :
    (loading.ask path).asked = path :: loading.asked := rfl

theorem asked_read {options : SessionOptions} {loading : Loading} {path : Path}
    {text : List Char} : (loading.read options path text).1.asked = loading.asked := by
  simp only [read]
  split <;> rfl

/-- Load the files that are asked for, and behind each of them those that it demands. -/
def load (options : SessionOptions) (archive : Archive) (loading : Loading) :
    List FileRequest → Loading
  | [] => loading
  | request :: rest =>
    let path := request.path.normalize
    if _ : path ∈ loading.asked then load options archive loading rest
    else
      match _ : archive.text? path with
      | none =>
        load options archive
          ((loading.ask path).say [.report (failed request path (archive.failure path))]) rest
      | some text =>
        let step := (loading.ask path).read options path text
        load options archive step.1 (step.2 ++ rest)
  termination_by requests => (archive.unread loading.asked, requests.length)
  decreasing_by
    · exact Prod.Lex.right _ (by simp)
    · rw [asked_say, asked_ask]
      rcases Nat.lt_or_eq_of_le (archive.unread_cons_le path loading.asked) with fewer | same
      · exact Prod.Lex.left _ _ fewer
      · rw [same]
        exact Prod.Lex.right _ (by simp)
    · refine Prod.Lex.left _ _ ?_
      rw [asked_read, asked_ask]
      exact Archive.unread_cons_lt ‹_› ‹_›

end Loading

end Cadence

import LuaSymbols.Identity
import LuaSymbols.Workspace

namespace LuaSymbols

structure Diagnostic where
  message : String
  range : Range
deriving DecidableEq, Repr

def Diagnostic.severity : String := "error"

structure Service where
  evictOnClose : Bool
  verbose : Bool
  documents : Table Text
  workspace : Workspace

/-- What an operation did: the new state, the notices that were shown, the identities whose text was
asked for, and the answer. A fault leaves the state as it was when the fault was met. -/
structure Reply (α : Type) where
  service : Service
  notices : List Notice
  asked : List String
  answer : Except Fault α

namespace Reply

variable {α β : Type}

def map (f : α → β) (r : Reply α) : Reply β := ⟨r.service, r.notices, r.asked, r.answer.map f⟩

/-- Goes on from the state and the answer of a reply. After a fault nothing more is done. -/
def andThen (r : Reply α) (next : Service → α → Reply β) : Reply β :=
  match r.answer with
  | .error fault => ⟨r.service, r.notices, r.asked, .error fault⟩
  | .ok a =>
    let rest := next r.service a
    ⟨rest.service, r.notices ++ rest.notices, r.asked ++ rest.asked, rest.answer⟩

end Reply

def missingText (identity : String) : String := s!"No text stored for {identity}"

def storedText (documents : Table Text) : ContentProvider := fun identity =>
  match documents.get? identity with
  | some text => .ok text
  | none => .error (missingText identity)

namespace Service

variable {α : Type}

def new (evictOnClose verbose : Bool) : Service := ⟨evictOnClose, verbose, [], []⟩

def reply (s : Service) (a : α) : Reply α := ⟨s, [], [], .ok a⟩

/-- Shows a notice and answers. If the console refuses the notice there is no answer. -/
def tell (s : Service) (tools : Tools) (notice : Notice) (a : α) : Reply α :=
  if tools.console.shows notice then ⟨s, [notice], [], .ok a⟩
  else ⟨s, [], [], .error (.unprintable notice.markup)⟩

def debug (s : Service) (tools : Tools) (notice : Notice) (a : α) : Reply α :=
  if s.verbose then s.tell tools notice a else s.reply a

def remember (s : Service) (uri : String) (text : Option Text) : Service :=
  match text with
  | some text => { s with documents := s.documents.put (identityOf uri) text }
  | none => s

/-- A document was opened or saved: it is tracked and marked as changed. -/
def opened (s : Service) (uri : String) (text : Option Text) : Service :=
  let s := s.remember uri text
  { s with workspace := (s.workspace.track (identityOf uri)).markDirty (identityOf uri) }

/-- A document was changed. One that is not tracked is passed over. -/
def changed (s : Service) (uri : String) (text : Option Text) : Service :=
  let identity := identityOf uri
  if s.workspace.has identity then
    let s := s.remember identity text
    { s with workspace := s.workspace.markDirty identity }
  else s

def without (s : Service) (identity : String) : Service :=
  { s with
    documents := s.documents.remove identity
    workspace := s.workspace.remove identity }

/-- Forgets a document with its text. The answer is whether it was tracked. -/
def evict (s : Service) (tools : Tools) (uri : String) : Reply Bool :=
  let s' := s.without (identityOf uri)
  -- The notice is about what was there before.
  if s.workspace.has (identityOf uri) then s'.debug tools (.evicted (identityOf uri)) true
  else s'.reply false

def closed (s : Service) (tools : Tools) (uri : String) : Reply Unit :=
  if s.evictOnClose then (s.evict tools uri).map fun _ => () else s.reply ()

/-- Stores and indexes one document at once. The answer is whether its text parses. -/
def index (s : Service) (tools : Tools) (uri : String) (text : Text) : Reply Bool :=
  let identity := identityOf uri
  let s := s.remember uri (some text)
  let s := { s with workspace := s.workspace.track identity }
  match (s.workspace.entry identity).rebuild text tools.parser with
  -- The text is stored and the file tracked, although there is no index of the text.
  | .error fault => ⟨s, [], [], .error fault⟩
  | .ok (f, failure) =>
    let s := { s with workspace := s.workspace.put identity f }
    match failure with
    | some failure => s.tell tools (.cannotParse identity failure) false
    | none => s.reply true

/-- Stores and indexes a batch of documents, in their order. The answer is how many of them parse,
added to those counted before. -/
def seedFrom (s : Service) (tools : Tools) (count : Nat) : List (String × Text) → Reply Nat
  | [] => s.reply count
  | (uri, text) :: rest => (s.index tools uri text).andThen fun s parsed =>
    s.seedFrom tools (if parsed then count + 1 else count) rest

def seed (s : Service) (tools : Tools) (documents : List (String × Text)) : Reply Nat :=
  s.seedFrom tools 0 documents

def refresh (s : Service) (tools : Tools) (identity : String) : Reply Unit :=
  let before := (s.workspace.entry identity).walkCount
  let r := s.workspace.ensureFresh tools identity (storedText s.documents)
  let s' := { s with workspace := r.workspace }
  match r.fault with
  | some fault => ⟨s', r.notices, r.asked, .error fault⟩
  | none =>
    (⟨s', r.notices, r.asked, .ok ()⟩ : Reply Unit).andThen fun s _ =>
      let after := s.workspace.entry identity
      if after.walkCount = before then s.reply ()
      else s.debug tools (.rebuilt identity after.symbols.length) ()

def refreshAll (s : Service) (tools : Tools) : List String → Reply Unit
  | [] => s.reply ()
  | identity :: rest => (s.refresh tools identity).andThen fun s _ => s.refreshAll tools rest

/-- Brings a document up to date and reads an answer off its index. An unknown document has the given
answer. -/
def query (s : Service) (tools : Tools) (uri : String) (unknown : α) (read : FileIndex → α) :
    Reply α :=
  let identity := identityOf uri
  if s.workspace.has identity then
    (s.refresh tools identity).andThen fun s _ => s.reply (read (s.workspace.entry identity))
  else s.reply unknown

def listSymbols (s : Service) (tools : Tools) (uri : String) : Reply (List Symbol) :=
  s.query tools uri [] (·.symbols)

/-- The problems of an index: its failure, at the place where the parser gave up. -/
def problemsOf (f : FileIndex) : List Diagnostic :=
  match f.lastError with
  | none => []
  | some failure => [⟨failure.message, Range.point (failure.position.getD Position.origin)⟩]

def diagnostics (s : Service) (tools : Tools) (uri : String) : Reply (List Diagnostic) :=
  s.query tools uri [] problemsOf

def findDefinition (s : Service) (tools : Tools) (uri : String) (p : Position) :
    Reply (List Location) :=
  (s.query tools uri none fun f => f.occurrenceAt? p).andThen fun s occurrence =>
    match occurrence with
    | none => s.reply []
    | some o =>
      let others := s.workspace.keys.filter fun key => key != identityOf uri
      (s.refreshAll tools others).andThen fun s _ =>
        let locations := s.workspace.resolve o.name
        s.debug tools (.resolved o.name locations.length) locations

end Service

inductive Operation where
  | opened (uri : String) (text : Option Text)
  | saved (uri : String) (text : Option Text)
  | changed (uri : String) (text : Option Text)
  | closed (uri : String)
  | evict (uri : String)
  | seed (documents : List (String × Text))
  | listSymbols (uri : String)
  | findDefinition (uri : String) (position : Position)
  | diagnostics (uri : String)

inductive Answer where
  | nothing
  | evicted (known : Bool)
  | seeded (count : Nat)
  | symbols (symbols : List Symbol)
  | locations (locations : List Location)
  | diagnostics (problems : List Diagnostic)
deriving DecidableEq

def Service.perform (s : Service) (tools : Tools) : Operation → Reply Answer
  | .opened uri text | .saved uri text => (s.opened uri text).reply .nothing
  | .changed uri text => (s.changed uri text).reply .nothing
  | .closed uri => (s.closed tools uri).map fun _ => .nothing
  | .evict uri => (s.evict tools uri).map .evicted
  | .seed documents => (s.seed tools documents).map .seeded
  | .listSymbols uri => (s.listSymbols tools uri).map .symbols
  | .findDefinition uri p => (s.findDefinition tools uri p).map .locations
  | .diagnostics uri => (s.diagnostics tools uri).map .diagnostics

end LuaSymbols

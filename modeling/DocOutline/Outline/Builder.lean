import DocOutline.Outline.Basic
import DocOutline.Symbol.Classify

/-!
# The state of a walk

While a document is walked through, the entries that are still open form a stack of frames, each with the
outlines finished inside it so far. Finishing the top frame hangs it into the frame below; the bottom frame is
a sentinel whose outlines are the result. A heading stays open until another one of the same or a lower level,
or the end of the block around it, closes it.
-/

namespace DocOutline.Outline

open DocOutline.Symbol (Entry Naming Scope)

/-- An open entry, with the outlines finished inside it, the latest first. -/
structure Frame where
  entry : Entry String
  finished : List (Outline String) := []
deriving Repr

namespace Frame

/-- The outline of an entry that is closed now (`finish_node`). -/
def close (frame : Frame) : Outline String := .mk frame.entry frame.finished.reverse

/-- Puts an outline behind those finished so far. -/
def adopt (outline : Outline String) (frame : Frame) : Frame :=
  { frame with finished := outline :: frame.finished }

/-- Whether a heading of the given level ends in front of this frame: at a block, or at a heading of a
smaller level. -/
def holdsHeading (level : Int) (frame : Frame) : Bool :=
  frame.entry.kind.isGroup || frame.entry.kind.level?.any (· < level)

/-- The frame at the bottom of the stack. -/
def sentinel : Frame := ⟨⟨"", .heading (-1), 0, 0⟩, []⟩

end Frame

/-- The state of a walk: the open frames from the top down, how the next identifier is understood, and the
number of nodes around the current one (`HierarchyBuilder`, specification, section 4.2). -/
structure Builder where
  scope : Scope
  frames : List Frame := []
  naming : Naming := .reference
  depth : Nat := 0
deriving Repr

/-- The stacks that a walk uses. -/
inductive Stack where
  /-- The entries that are open. -/
  | entries
  /-- The calls that have not returned. -/
  | calls
deriving DecidableEq, Repr

/-- Why a walk ends early. -/
inductive Fault where
  | structure (error : Syntax.StructureError)
  /-- A frame of a stack, or an outline finished inside one, was asked for and there is none. -/
  | noFrame {stack : Stack}
deriving Repr

/-- No entry is open, or nothing is finished inside the one that is. -/
@[match_pattern]
def Fault.noEntry : Fault := @Fault.noFrame .entries

/-- The stack has no room for another call. -/
@[match_pattern]
def Fault.noCall : Fault := @Fault.noFrame .calls

/-- An action on the state of a walk. What it has done so far stays done when it fails. -/
abbrev Walk (α : Type) := ExceptT Fault (StateM Builder) α

namespace Walk

def fail (fault : Fault) : Walk α := fun builder => (.error fault, builder)

def ofExcept : Except Syntax.StructureError α → Walk α
  | .ok a => pure a
  | .error error => fail (.structure error)

/-- Does something and then changes the state, also if it has failed. -/
def andFinally (body : Walk α) (change : Builder → Builder) : Walk α := fun builder =>
  let result := body builder
  (result.1, change result.2)

/-- Does something in a naming context of its own (`naming`). -/
def withNaming (naming : Naming) (body : Walk α) : Walk α := fun builder =>
  andFinally body (fun after => { after with naming := builder.naming }) { builder with naming }

def deeper (body : Walk α) : Walk α := fun builder =>
  andFinally body (fun after => { after with depth := after.depth - 1 })
    { builder with depth := builder.depth + 1 }

def push (entry : Entry String) : Walk Unit := fun builder =>
  (.ok (), { builder with frames := ⟨entry, []⟩ :: builder.frames })

def height : Walk Nat := fun builder => (.ok builder.frames.length, builder)

/-- Changes the outlines finished inside the top frame. -/
def changeFinished (change : List (Outline String) → List (Outline String)) : Walk Unit := fun builder =>
  match builder.frames with
  | top :: rest =>
    (.ok (), { builder with frames := { top with finished := change top.finished } :: rest })
  | [] => (.error .noEntry, builder)

/-- The outlines finished inside the top frame, the latest first. -/
def finished : Walk (List (Outline String)) := fun builder =>
  match builder.frames with
  | top :: _ => (.ok top.finished, builder)
  | [] => (.error .noEntry, builder)

/-- Closes the top frame into the one below (`finish_top`). -/
def finishTop : Walk Unit := fun builder =>
  match builder.frames with
  | top :: below :: rest => (.ok (), { builder with frames := below.adopt top.close :: rest })
  | _ => (.error .noEntry, builder)

/-- Closes a number of frames. -/
def finishTops : Nat → Walk Unit
  | 0 => pure ()
  | n + 1 => do
    finishTop
    finishTops n

/-- Closes frames until no more than `height` of them are open (`close_to`). -/
def closeTo (height : Nat) : Walk Unit := do finishTops ((← Walk.height) - height)

/-- How many frames at the top of a stack a heading of the given level closes. It never closes the bottom
one. -/
def closedBy (level : Int) : List Frame → Nat
  | [] => 0
  | [_] => 0
  | frame :: frames => if frame.holdsHeading level then 0 else closedBy level frames + 1

/-- Closes the frames that end where a heading of the given level begins (`_close_lower_headings`,
specification, section 4.2). -/
def closeLowerHeadings (level : Int) : Walk Unit := do finishTops (closedBy level (← get).frames)

/-- Closes the frames that end where an entry of the given kind begins. Only headings close any. -/
def makeRoom (kind : Symbol.Kind) : Walk Unit :=
  match kind.level? with
  | some level => closeLowerHeadings level
  | none => pure ()

end Walk

end DocOutline.Outline

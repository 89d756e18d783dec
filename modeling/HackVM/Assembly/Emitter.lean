import HackVM.Assembly.Block

/-!
# Emitting assembly

An `Emitter` writes the assembly of instructions one after the other, each under a comment that
restates it, and numbers the comparisons. It writes line by line to a sink that may stop accepting
lines; after the first refusal it writes nothing more. `emit` takes one instruction, `emitAll` a
program up to the first error.
-/

namespace HackVM

/-- The place the assembly is written to. -/
structure Sink where
  /-- How many more lines it accepts, if there is a limit. -/
  room : Option Nat := none
  /-- What it says when it refuses a line. -/
  refusal : Text := []
  deriving DecidableEq, Repr

/-- Why an instruction could not be emitted. -/
inductive EmitError
  | code (e : CodeError)
  | write (refusal : Text)
  deriving DecidableEq, Repr

/-- The message of an emit error. -/
def EmitError.message : EmitError → Text
  | code e => e.message
  | write refusal => utf8 "write assembly: " ++ refusal

/-- The state of an emitter. -/
structure Emitter where
  /-- Put before the numbers of static cells, unless empty. -/
  staticNamespace : Text := []
  /-- The number of the next comparison; it wraps around. -/
  labels : Int64 := 0
  /-- How many lines have been written. -/
  lines : Nat := 0
  sink : Sink := {}
  /-- Has the sink refused a line? -/
  failed : Bool := false
  deriving DecidableEq, Repr

/-- What one call of an emitter did. -/
structure Emission where
  emitter : Emitter
  /-- The lines that were written. -/
  written : List AsmLine
  error : Option EmitError
  deriving DecidableEq, Repr

namespace Emitter

/-- The emitter after a line has been accepted, or `none` if the sink refuses it. -/
def accept? (e : Emitter) : Option Emitter :=
  match e.sink.room with
  | some 0 => none
  | room => some { e with
      lines := e.lines + 1
      sink := { e.sink with room := room.map (· - 1) } }

/-- Writes lines up to the first that is refused. -/
def write (e : Emitter) : List AsmLine → Emitter × List AsmLine
  | [] => (e, [])
  | l :: ls =>
    match e.accept? with
    | none => ({ e with failed := true }, [])
    | some e' =>
      let (last, taken) := e'.write ls
      (last, l :: taken)

/-- The error of an emitter whose sink has refused a line. -/
def writeError (e : Emitter) : Option EmitError :=
  if e.failed then some (.write e.sink.refusal) else none

/-- The emitter with the number of the next comparison moved on if the operation takes one. -/
def countLabel (e : Emitter) : Operation → Emitter
  | .compare _ => { e with labels := e.labels + 1 }
  | _ => e

/-- The lines that stand for an instruction: a comment and its code. -/
def block (e : Emitter) (i : Instruction) (op : Operation) : List AsmLine :=
  .comment i.text :: Block.code e.staticNamespace e.labels op

/-- Emits one instruction. Nothing is written for an instruction without code, and nothing at all
once the sink has refused a line. -/
def emit (e : Emitter) (i : Instruction) : Emission :=
  if e.failed then ⟨e, [], e.writeError⟩
  else match i.operation with
    | .error err => ⟨e, [], some (.code err)⟩
    | .ok op =>
      let (e', written) := (e.countLabel op).write (e.block i op)
      ⟨e', written, e'.writeError⟩

/-- Emits instructions up to the first error. -/
def emitAll (e : Emitter) : List Instruction → Emission
  | [] => ⟨e, [], none⟩
  | i :: is =>
    match e.emit i with
    | ⟨e', written, some err⟩ => ⟨e', written, some err⟩
    | ⟨e', written, none⟩ =>
      let rest := e'.emitAll is
      ⟨rest.emitter, written ++ rest.written, rest.error⟩

end Emitter

end HackVM

import Aesd.Driver.Represents
import Aesd.Server.Request

/-!
# What the chunks of a client amount to

A client sends one stream of bytes, which arrives cut into chunks.  The receive
loop ends with the first chunk that has a newline; it writes a chunk up to its
first newline, except that a chunk after which the receive buffer starts with
the text of the seek command is not written.  As long as no chunk is taken for a
command, the device is supplied with the first line of the stream, however the
stream was cut.
-/

namespace Aesd.Server

open Aesd.Driver Aesd.Word

/-- The bytes of the chunks in order. -/
def streamOf (chunks : List Chunk) : List Byte :=
  (chunks.map Subtype.val).flatten

/-- What the chunks supply to the device. -/
def suppliedBy (receiveBuffer : List Byte) : List Chunk → List Byte
  | [] => []
  | chunk :: chunks =>
      let receiveBuffer := receiveInto receiveBuffer chunk.1
      (if startsWithIoctlStr receiveBuffer then [] else consumed chunk.1) ++
        if newline ∈ chunk.1 then [] else suppliedBy receiveBuffer chunks

/-- Whether the last iteration of the receive loop takes the seek branch. -/
def endsWithCommand (receiveBuffer : List Byte) : List Chunk → Bool
  | [] => false
  | chunk :: chunks =>
      let receiveBuffer := receiveInto receiveBuffer chunk.1
      if newline ∈ chunk.1 then startsWithIoctlStr receiveBuffer
      else endsWithCommand receiveBuffer chunks

/-- No iteration of the receive loop takes the seek branch. -/
def NoCommand (receiveBuffer : List Byte) : List Chunk → Prop
  | [] => True
  | chunk :: chunks =>
      let receiveBuffer := receiveInto receiveBuffer chunk.1
      startsWithIoctlStr receiveBuffer = false ∧
        (newline ∈ chunk.1 ∨ NoCommand receiveBuffer chunks)

instance decidableNoCommand :
    ∀ receiveBuffer chunks, Decidable (NoCommand receiveBuffer chunks)
  | _, [] => isTrue trivial
  | receiveBuffer, chunk :: chunks =>
      have := decidableNoCommand (receiveInto receiveBuffer chunk.1) chunks
      inferInstanceAs (Decidable (_ ∧ (_ ∨ _)))

@[simp]
theorem streamOf_nil : streamOf [] = [] :=
  rfl

@[simp]
theorem streamOf_cons (chunk : Chunk) (chunks : List Chunk) :
    streamOf (chunk :: chunks) = chunk.1 ++ streamOf chunks :=
  rfl

theorem streamOf_append (front back : List Chunk) :
    streamOf (front ++ back) = streamOf front ++ streamOf back := by
  simp [streamOf]

theorem mem_streamOf_iff {chunks : List Chunk} {byte : Byte} :
    byte ∈ streamOf chunks ↔ ∃ chunk ∈ chunks, byte ∈ chunk.1 := by
  simp only [streamOf, List.mem_flatten, List.mem_map]
  constructor
  · rintro ⟨_, ⟨chunk, member, rfl⟩, inside⟩
    exact ⟨chunk, member, inside⟩
  · rintro ⟨chunk, member, inside⟩
    exact ⟨chunk.1, ⟨chunk, member, rfl⟩, inside⟩

/-! ## Streams without a command -/

/-- Chunks of which none is taken for a command supply the first line of their
stream. -/
theorem NoCommand.suppliedBy_eq {receiveBuffer : List Byte} {chunks : List Chunk}
    (noCommand : NoCommand receiveBuffer chunks) :
    suppliedBy receiveBuffer chunks = consumed (streamOf chunks) := by
  induction chunks generalizing receiveBuffer with
  | nil => rfl
  | cons chunk chunks ih =>
      rcases noCommand with ⟨plain, later⟩
      by_cases found : newline ∈ chunk.1
      · simp [suppliedBy, plain, found, firstLine_append_of_mem]
      · simp [suppliedBy, plain, found, firstLine_append_of_not_mem, firstLine_of_not_mem,
          ih (later.resolve_left found)]

theorem NoCommand.endsWithCommand_eq {receiveBuffer : List Byte} {chunks : List Chunk}
    (noCommand : NoCommand receiveBuffer chunks) :
    endsWithCommand receiveBuffer chunks = false := by
  induction chunks generalizing receiveBuffer with
  | nil => rfl
  | cons chunk chunks ih =>
      rcases noCommand with ⟨plain, later⟩
      by_cases found : newline ∈ chunk.1
      · simp [endsWithCommand, plain, found]
      · simp [endsWithCommand, found, ih (later.resolve_left found)]

/-- The chunks supply at most the first line of their stream. -/
theorem length_suppliedBy_le (receiveBuffer : List Byte) (chunks : List Chunk) :
    (suppliedBy receiveBuffer chunks).length ≤ (consumed (streamOf chunks)).length := by
  induction chunks generalizing receiveBuffer with
  | nil => exact Nat.le_refl _
  | cons chunk chunks ih =>
      have later := ih (receiveInto receiveBuffer chunk.1)
      by_cases found : newline ∈ chunk.1
      · cases plain : startsWithIoctlStr (receiveInto receiveBuffer chunk.1) <;>
          simp [suppliedBy, plain, found, firstLine_append_of_mem]
      · cases plain : startsWithIoctlStr (receiveInto receiveBuffer chunk.1) <;>
          simp [suppliedBy, plain, found, firstLine_append_of_not_mem, firstLine_of_not_mem,
            later, Nat.le_add_left_of_le later]

/-- A chunk that is taken for a command is missing from what is supplied. -/
theorem length_suppliedBy_lt {receiveBuffer : List Byte} {chunks : List Chunk}
    (command : ¬NoCommand receiveBuffer chunks) :
    (suppliedBy receiveBuffer chunks).length < (consumed (streamOf chunks)).length := by
  induction chunks generalizing receiveBuffer with
  | nil => exact absurd trivial command
  | cons chunk chunks ih =>
      have some' : 0 < (consumed chunk.1).length := length_firstLine_pos chunk.2.1
      have atMost := length_suppliedBy_le (receiveInto receiveBuffer chunk.1) chunks
      by_cases found : newline ∈ chunk.1
      · cases plain : startsWithIoctlStr (receiveInto receiveBuffer chunk.1) with
        | false => exact absurd ⟨plain, Or.inl found⟩ command
        | true => simpa [suppliedBy, plain, found, firstLine_append_of_mem] using some'
      · have whole : consumed chunk.1 = chunk.1 := firstLine_of_not_mem found
        rw [whole] at some'
        simp only [suppliedBy, if_neg found, whole, streamOf_cons, consumed,
          firstLine_append_of_not_mem found, List.length_append]
        cases plain : startsWithIoctlStr (receiveInto receiveBuffer chunk.1) with
        | false =>
            have command' : ¬NoCommand (receiveInto receiveBuffer chunk.1) chunks :=
              fun rest => command ⟨plain, Or.inr rest⟩
            have later := ih command'
            simpa using later
        | true =>
            rw [if_pos rfl, List.length_nil, Nat.zero_add]
            exact Nat.lt_of_le_of_lt atMost (Nat.lt_add_of_pos_left some')

/-! ## Short chunks -/

/-- Chunks shorter than the text of the command leave the place of its last letter
zero, so none is taken for a command. -/
theorem noCommand_of_short {chunks : List Chunk}
    (short : ∀ chunk ∈ chunks, chunk.1.length < ioctlStr.length) :
    NoCommand clearedBuffer chunks := by
  have general : ∀ receiveBuffer : List Byte, receiveBuffer[18]? = some 0 →
      NoCommand receiveBuffer chunks := by
    induction chunks with
    | nil => exact fun _ _ => trivial
    | cons chunk chunks ih =>
        intro receiveBuffer zero
        have outside : chunk.1.length ≤ 18 :=
          Nat.le_of_lt_succ (short chunk List.mem_cons_self)
        have kept : (receiveInto receiveBuffer chunk.1)[18]? = some 0 := by
          rw [receiveInto, List.getElem?_append_right outside, List.getElem?_drop,
            Nat.add_sub_cancel' outside]
          exact zero
        refine ⟨?_, Or.inr (ih (fun other member => short other (List.mem_cons_of_mem _ member))
          _ kept)⟩
        rw [startsWithIoctlStr, beq_eq_false_iff_ne]
        intro matched
        have last := congrArg (fun bytes : List Byte => bytes[18]?) matched
        rw [List.getElem?_take_of_lt (by decide), kept] at last
        exact absurd last (by decide)
  apply general
  rw [clearedBuffer, List.getElem?_replicate_of_lt (by decide)]

/-- The cutting into single bytes. -/
def singly (stream : List Byte) : List Chunk :=
  stream.map fun byte => ⟨[byte], by simp, by simp [bufLen]⟩

@[simp]
theorem streamOf_singly (stream : List Byte) : streamOf (singly stream) = stream := by
  induction stream with
  | nil => rfl
  | cons byte stream ih => exact congrArg (byte :: ·) ih

theorem noCommand_singly (stream : List Byte) : NoCommand clearedBuffer (singly stream) := by
  apply noCommand_of_short
  intro chunk member
  rcases List.mem_map.mp member with ⟨byte, _, rfl⟩
  exact (by decide : 1 < ioctlStr.length)

end Aesd.Server

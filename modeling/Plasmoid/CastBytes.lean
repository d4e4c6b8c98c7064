import Plasmoid.Mailboxes

/-!
# Casts among plain messages

A cast is a data message that starts with the byte `0x01`.  Nothing else marks
it, and a sender of plain messages is free to choose the bytes.  So a server
with `handle_cast` takes every data message that starts with this byte for a
cast, and drops it if the rest cannot be decoded.
-/

namespace Plasmoid

/-- How the messages of `handle_cast` are encoded. -/
structure CastCodec (α : Type) where
  encode : α → List UInt8
  decode : List UInt8 → Except String α

/-- What was encoded is decoded again. -/
def CastCodec.RoundTrips {α : Type} (codec : CastCodec α) : Prop :=
  ∀ v, codec.decode (codec.encode v) = .ok v

/-- The byte in front of a cast. -/
def castTag : UInt8 := 0x01

/-- Which handlers a server defines. -/
structure DataHandlers where
  handleCast : Bool
  handleInfo : Bool

/-- What the receive loop calls for a data message. -/
inductive Dispatch (α : Type) where
  | cast (msg : α)
  | info (data : List UInt8)
  | nothing
deriving DecidableEq

variable {α β : Type}

/-- A message that starts with the tag.  It is skipped if it cannot be
decoded. -/
def dispatchCast (codec : CastCodec α) (data : List UInt8) : Dispatch α :=
  match codec.decode (data.drop 1) with
  | .ok msg => .cast msg
  | .error _ => .nothing

/-- The arm of the receive loop for data messages. -/
def dispatchData (handlers : DataHandlers) (codec : CastCodec α)
    (data : List UInt8) : Dispatch α :=
  match handlers.handleCast, handlers.handleInfo with
  | true, true =>
    if data.head? = some castTag then dispatchCast codec data else .info data
  | true, false =>
    if data.head? = some castTag then dispatchCast codec data else .nothing
  | false, true => .info data
  | false, false => .nothing

/-- A data message, by who made it: `cast`, the host's `send` with the bytes of
the sender, or `send!` with a value of any type. -/
inductive SentData (α β : Type) where
  | cast (msg : α)
  | raw (data : List UInt8)
  | typed (value : β)

/-- The bytes of a data message. -/
def SentData.bytes (codec : CastCodec α) (encodeOther : β → List UInt8) :
    SentData α β → List UInt8
  | cast msg => castTag :: codec.encode msg
  | raw data => data
  | typed value => encodeOther value

/-- Where a data message should go. -/
def SentData.meant (encodeOther : β → List UInt8) : SentData α β → Dispatch α
  | cast msg => .cast msg
  | raw data => .info data
  | typed value => .info (encodeOther value)

def SentData.isCast : SentData α β → Bool
  | cast _ => true
  | raw _ | typed _ => false

/-- A server with both handlers. -/
def bothHandlers : DataHandlers := ⟨true, true⟩

theorem dispatchData_of_tag (codec : CastCodec α) {data : List UInt8}
    (h : data.head? = some castTag) :
    dispatchData bothHandlers codec data = dispatchCast codec data :=
  if_pos h

theorem dispatchData_of_no_tag (codec : CastCodec α) {data : List UInt8}
    (h : data.head? ≠ some castTag) :
    dispatchData bothHandlers codec data = .info data :=
  if_neg h

theorem dispatchCast_ne_info (codec : CastCodec α) (data data' : List UInt8) :
    dispatchCast codec data ≠ .info data' := by
  unfold dispatchCast
  split <;> simp

/-- A data message goes where it should if and only if it was built by `cast` or
does not start with the tag. -/
theorem dispatched_as_meant_iff (codec : CastCodec α) (hcodec : codec.RoundTrips)
    (encodeOther : β → List UInt8) (sent : SentData α β) :
    dispatchData bothHandlers codec (sent.bytes codec encodeOther) =
        sent.meant encodeOther ↔
      sent.isCast = true ∨
        (sent.bytes codec encodeOther).head? ≠ some castTag := by
  have hplain : ∀ data : List UInt8,
      dispatchData bothHandlers codec data = .info data ↔
        data.head? ≠ some castTag := by
    intro data
    constructor
    · intro hinfo htag
      rw [dispatchData_of_tag codec htag] at hinfo
      exact dispatchCast_ne_info codec data data hinfo
    · exact dispatchData_of_no_tag codec
  cases sent with
  | cast msg =>
    refine iff_of_true ?_ (.inl rfl)
    show dispatchData bothHandlers codec (castTag :: codec.encode msg) = .cast msg
    rw [dispatchData_of_tag codec rfl, dispatchCast, List.drop_one, List.tail_cons,
      hcodec msg]
  | raw data =>
    refine (hplain data).trans ⟨.inr, fun h => h.resolve_left ?_⟩
    exact Bool.false_ne_true
  | typed value =>
    refine (hplain (encodeOther value)).trans ⟨.inr, fun h => h.resolve_left ?_⟩
    exact Bool.false_ne_true

/-- Bytes, encoded as they are. -/
def byteCast : CastCodec UInt8 where
  encode v := [v]
  decode
    | [v] => .ok v
    | _ => .error "decode error"

/-- `false` is the byte 0 and `true` is the byte 1. -/
def encodeBool (b : Bool) : List UInt8 := if b then [1] else [0]

theorem byteCast_roundTrips : byteCast.RoundTrips := fun _ => rfl

theorem dispatched_as_meant_iff_byte :
    dispatchData bothHandlers byteCast
        (SentData.bytes byteCast encodeBool (.cast 7)) = .cast 7 ↔
      SentData.isCast (SentData.cast 7 : SentData UInt8 Bool) = true ∨
        (SentData.bytes byteCast encodeBool (.cast 7)).head? ≠ some castTag :=
  dispatched_as_meant_iff byteCast byteCast_roundTrips encodeBool (.cast 7)

/-- Raw bytes reach `handle_cast`, and `true` reaches nobody. -/
theorem plain_messages_confused :
    dispatchData bothHandlers byteCast [1, 5] = .cast 5 ∧
    dispatchData bothHandlers byteCast (encodeBool true) = .nothing ∧
    ¬ ∀ sent : SentData UInt8 Bool,
      dispatchData bothHandlers byteCast (sent.bytes byteCast encodeBool) =
        sent.meant encodeBool := by
  refine ⟨by decide, by decide, fun h => ?_⟩
  have hraw : Dispatch.cast (5 : UInt8) = .info [1, 5] := h (.raw [1, 5])
  cases hraw

end Plasmoid

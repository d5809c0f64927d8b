/-!
Counters of calls and of transient failures, one pair for each operation of the queue. A counter is
a word of 64 bits and starts again at zero after the greatest one.
-/

namespace PushQueue

inductive Operation where
  | registerChannel
  | unregisterChannel
  | allChannels
  | saveChannels
  | storeMessage
  | storeMessages
  | deleteMessage
  | fetchMessages
  | fetchTimestampMessages
  | updateLastMessageRead
  | getUser
  | registerUser
  | updateMessageMonth
  | removeNodeId
  | dropUser
deriving DecidableEq

namespace Operation

def all : List Operation :=
  [.registerChannel, .unregisterChannel, .allChannels, .saveChannels, .storeMessage,
    .storeMessages, .deleteMessage, .fetchMessages, .fetchTimestampMessages,
    .updateLastMessageRead, .getUser, .registerUser, .updateMessageMonth, .removeNodeId, .dropUser]

theorem mem_all (op : Operation) : op ∈ all := by cases op <;> decide

def name : Operation → String
  | registerChannel => "register_channel"
  | unregisterChannel => "unregister_channel"
  | allChannels => "all_channels"
  | saveChannels => "save_channels"
  | storeMessage => "store_message"
  | storeMessages => "store_messages"
  | deleteMessage => "delete_message"
  | fetchMessages => "fetch_messages"
  | fetchTimestampMessages => "fetch_timestamp_messages"
  | updateLastMessageRead => "update_last_message_read"
  | getUser => "get_user"
  | registerUser => "register_user"
  | updateMessageMonth => "update_message_month"
  | removeNodeId => "remove_node_id"
  | dropUser => "drop_user"

def ofName? (s : String) : Option Operation := all.find? fun op => op.name = s

end Operation

structure CallStats where
  enabled : Bool
  calls : Operation → UInt64
  transient : Operation → UInt64

namespace CallStats

def new (enabled : Bool) : CallStats := ⟨enabled, fun _ => 0, fun _ => 0⟩

instance : Inhabited CallStats := ⟨new false⟩

/-- Count one call, and its transient failure if it had one; nothing while disabled. -/
def record (s : CallStats) (op : Operation) (failedTransiently : Bool) : CallStats :=
  if s.enabled then
    { s with
      calls := fun o => if o = op then s.calls o + 1 else s.calls o
      transient := fun o =>
        if o = op ∧ failedTransiently then s.transient o + 1 else s.transient o }
  else s

/-- Name, calls and transient failures of one operation. -/
def line (s : CallStats) (op : Operation) : String × Nat × Nat :=
  (op.name, (s.calls op).toNat, (s.transient op).toNat)

/-- The lines of the operations whose calls are not at zero. -/
def snapshot (s : CallStats) : List (String × Nat × Nat) :=
  (Operation.all.filter fun op => 0 < s.calls op).map s.line

end CallStats

end PushQueue

import ClambHook.Lib.Machine
import ClambHook.Net.Buffer

/-!
# Byte queues are bounded FIFOs

A flow puts bytes in behind the window of its queue and takes bytes off the front; the window stays
in place, moves to the front of the buffer, or gets a larger buffer.  Seen from outside, the queue
is the bytes that were appended without those that were removed, and it refuses what would exceed
the limit.
-/

namespace ClambHook.Net

open CString Window Machine List

/-- A call on a queue.  No caller passes more than 65535 bytes.  When bytes leave, a caller may let
an empty queue start over. -/
inductive QueueCall where
  | reserve (amount : Nat) (h : amount ≤ 65535)
  | append (bs : Bytes) (h : bs.length ≤ 65535)
  | remove (n : Nat) (rewind : Bool)

/-- The queue behind a call, if the call succeeds.  Memory does not run out. -/
def QueueCall.answer (q : Queue UInt8) : QueueCall → Option (Queue UInt8)
  | .reserve amount _ => tunnelBufferReserve q amount true
  | .append bs _ => tunnelBufferAppend q bs true
  | .remove n rewind => some (if rewind then (q.advance n).rewind else q.advance n)

def QueueCall.perform (q : Queue UInt8) (call : QueueCall) : Queue UInt8 :=
  (call.answer q).getD q

/-- The bytes that a call asks room for. -/
def QueueCall.amount : QueueCall → Nat
  | .reserve amount _ => amount
  | .append bs _ => bs.length
  | .remove _ _ => 0

/-- What a call does to the bytes of a FIFO: they leave in the order in which they came. -/
def QueueCall.effect (content : Bytes) : QueueCall → Bytes
  | .reserve _ _ => content
  | .append bs _ => content ++ bs
  | .remove n _ => content.drop n

/-- A bounded FIFO: a call that would exceed the limit fails. -/
def fifo (content : Bytes) (call : QueueCall) : Bytes :=
  if content.length + call.amount ≤ queueLimit then call.effect content else content

variable {q : Queue UInt8} (hcapacity : q.capacity ≤ queueLimit)

include hcapacity

theorem answer_eq_none {call : QueueCall} (h : ¬ q.content.length + call.amount ≤ queueLimit) :
    call.answer q = none := by
  have hfits := q.fits
  rw [q.length_content] at h
  have hreserve : ∀ amount ≤ 65535, ¬ q.length + amount ≤ queueLimit →
      tunnelBufferReserve q amount true = none := by
    intro amount hamount h
    have hlimit : 65535 ≤ queueLimit := by decide
    rw [tunnelBufferReserve, bufferReserve, if_neg (by omega), if_pos (by omega)]
  cases call with
  | reserve amount hamount => exact hreserve amount hamount h
  | append bs hamount =>
    rw [QueueCall.answer, tunnelBufferAppend, hreserve _ hamount h, Option.map_none]
  | remove n rewind => exact absurd (show q.length + 0 ≤ queueLimit by omega) h

theorem exists_answer {call : QueueCall} (h : q.content.length + call.amount ≤ queueLimit) :
    ∃ q', call.answer q = some q' ∧ q'.content = fifo q.content call ∧
      q'.capacity ≤ queueLimit := by
  rw [fifo, if_pos h]
  rw [q.length_content] at h
  cases call with
  | reserve amount =>
    obtain ⟨q', hq', hlimit⟩ := exists_bufferReserve hcapacity h
    exact ⟨q', hq', (bufferReserve_spec hq').1, hlimit⟩
  | append bs =>
    obtain ⟨q', hq', hlimit⟩ := exists_bufferReserve hcapacity h
    refine ⟨q'.write bs, congrArg (Option.map _) hq', ?_, ?_⟩
    · rw [content_write_of_reserve hq', QueueCall.effect]
    · rwa [Queue.capacity_write]
  | remove n rewind =>
    refine ⟨_, rfl, ?_, ?_⟩
    · cases rewind with
      | false => exact q.content_advance n
      | true => exact (Queue.content_rewind _).trans (q.content_advance n)
    · cases rewind with
      | false => exact hcapacity
      | true =>
        simp only [if_true, Queue.rewind]
        split <;> exact hcapacity

omit hcapacity

/-- **Byte queues are bounded FIFOs.**  After any calls the queue holds what was appended without
what was removed, inside a capacity within the limit, and a call fails exactly if the content would
exceed the limit.  Room that was reserved is there: bytes written behind the window lie inside the
capacity. -/
theorem queue_refines_fifo (calls : List QueueCall) :
    let q := run QueueCall.perform .empty calls
    q.content = run fifo [] calls ∧ q.offset + q.length ≤ q.capacity ∧
      q.capacity ≤ queueLimit ∧
      (∀ call : QueueCall, call.answer q = none ↔
        ¬ q.content.length + call.amount ≤ queueLimit) ∧
      ∀ amount q', tunnelBufferReserve q amount true = some q' →
        q'.offset + q'.length + amount ≤ q'.capacity := by
  have hrun : (run QueueCall.perform .empty calls).content = run fifo [] calls ∧
      (run QueueCall.perform .empty calls).capacity ≤ queueLimit := by
    induction calls using List.reverseRecOn with
    | nil => exact ⟨rfl, Nat.zero_le _⟩
    | append_singleton calls call ih =>
      rw [run_concat, run_concat, ← ih.1, QueueCall.perform]
      by_cases h : (run QueueCall.perform .empty calls).content.length + call.amount ≤ queueLimit
      · obtain ⟨q', hq', hcontent, hlimit⟩ := exists_answer ih.2 h
        rw [hq']
        exact ⟨hcontent, hlimit⟩
      · rw [answer_eq_none ih.2 h, fifo, if_neg h]
        exact ⟨rfl, ih.2⟩
  refine ⟨hrun.1, Queue.fits _, hrun.2, fun call ↦ ⟨fun hnone h ↦ ?_, answer_eq_none hrun.2⟩,
    fun _ _ h ↦ (bufferReserve_spec h).2⟩
  obtain ⟨q', hq', -⟩ := exists_answer hrun.2 h
  cases hnone.symm.trans hq'

end ClambHook.Net

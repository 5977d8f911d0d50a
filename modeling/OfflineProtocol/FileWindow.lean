import Mathlib.Data.Finset.Card
import Mathlib.Order.Filter.AtTopBot.Basic
import Mathlib.Order.Filter.Finite
import Mathlib.Order.Lattice.Nat

/-!
# The sending window of an outbound file

Chunks are handed out in order while the window has room, and acknowledgements, which may be
stray, repeated or late, make room again. A run is an endless sequence of calls.
-/

namespace OfflineProtocol.FileTransfer
open List Filter

structure FileChunk where
  chunkIndex : ℕ
  chunkData : List UInt8
  deriving DecidableEq

structure OutboundTransferState where
  chunks : List FileChunk
  nextUnsent : ℕ
  inFlight : Finset ℕ
  acked : Finset ℕ
  maxInFlight : ℕ

inductive TransferCall
  | nextChunksToSend
  | onChunkAck (chunkIndex : ℕ)
  | onChunkFailed (chunkIndex : ℕ)

namespace OutboundTransferState

def new (chunks : List FileChunk) (maxInFlight : ℕ) : OutboundTransferState :=
  ⟨chunks, 0, ∅, ∅, maxInFlight⟩

/-- The loop of `next_chunks_to_send`, over the chunks that are still unsent. -/
def sendFrom : List FileChunk → OutboundTransferState → OutboundTransferState × List FileChunk
  | [], s => (s, [])
  | chunk :: rest, s =>
    if s.inFlight.card < s.maxInFlight then
      let r := sendFrom rest { s with
        inFlight := insert chunk.chunkIndex s.inFlight
        nextUnsent := s.nextUnsent + 1 }
      (r.1, chunk :: r.2)
    else (s, [])

variable (s : OutboundTransferState)

def nextChunksToSend : OutboundTransferState × List FileChunk :=
  sendFrom (s.chunks.drop s.nextUnsent) s

def onChunkAck (chunkIndex : ℕ) : OutboundTransferState × Bool :=
  if (s.chunks.take s.nextUnsent).any fun chunk => chunk.chunkIndex = chunkIndex then
    ({ s with
      acked := insert chunkIndex s.acked
      inFlight := s.inFlight.erase chunkIndex }, chunkIndex ∈ s.inFlight)
  else (s, false)

def onChunkFailed (chunkIndex : ℕ) : OutboundTransferState :=
  { s with inFlight := s.inFlight.erase chunkIndex }

def perform : TransferCall → OutboundTransferState × List FileChunk
  | .nextChunksToSend => s.nextChunksToSend
  | .onChunkAck chunkIndex => ((s.onChunkAck chunkIndex).1, [])
  | .onChunkFailed chunkIndex => (s.onChunkFailed chunkIndex, [])

end OutboundTransferState

open OutboundTransferState

/-- One file and the calls made for it; a finite sequence of calls is the beginning of one. -/
structure Transfer where
  chunks : List FileChunk
  distinct : (chunks.map (·.chunkIndex)).Nodup
  w : ℕ
  calls : ℕ → TransferCall

namespace Transfer

/-- The state and the chunks handed out after the first `n` calls. -/
def after (t : Transfer) : ℕ → OutboundTransferState × List FileChunk
  | 0 => (.new t.chunks t.w, [])
  | n + 1 =>
    let r := (t.after n).1.perform (t.calls n)
    (r.1, (t.after n).2 ++ r.2)

def Indexed (out : List FileChunk) (i : ℕ) : Prop := ∃ chunk ∈ out, chunk.chunkIndex = i

structure Sound (t : Transfer) (s : OutboundTransferState) (out : List FileChunk) : Prop where
  same : s.chunks = t.chunks
  size : s.maxInFlight = t.w
  handed : out = t.chunks.take s.nextUnsent
  within : s.nextUnsent ≤ t.chunks.length
  room : s.inFlight.card ≤ t.w
  acked : ∀ i ∈ s.acked, Indexed out i
  waiting : ∀ i ∈ s.inFlight, Indexed out i ∧ i ∉ s.acked

variable {t : Transfer}

lemma Sound.length (h : t.Sound s out) : out.length = s.nextUnsent := by
  rw [h.handed, length_take, min_eq_left h.within]

/-- One round of the loop. -/
lemma Sound.push (h : t.Sound s out) (hrest : chunk :: rest = t.chunks.drop s.nextUnsent)
    (hroom : s.inFlight.card < s.maxInFlight) :
    t.Sound { s with
      inFlight := insert chunk.chunkIndex s.inFlight
      nextUnsent := s.nextUnsent + 1 } (out ++ [chunk]) ∧
      rest = t.chunks.drop (s.nextUnsent + 1) := by
  have hsplit : t.chunks = out ++ chunk :: rest := by
    rw [h.handed, hrest, take_append_drop]
  have hlen := h.length
  have hnew : ¬Indexed out chunk.chunkIndex := by
    rintro ⟨old, hold, heq⟩
    have hdist := t.distinct
    rw [hsplit, map_append, map_cons, nodup_append] at hdist
    exact hdist.2.2 _ (mem_map_of_mem hold) _ mem_cons_self heq
  have hindexed {i} (hi : Indexed out i) : Indexed (out ++ [chunk]) i := by
    obtain ⟨old, hold, heq⟩ := hi
    exact ⟨old, mem_append_left _ hold, heq⟩
  refine ⟨{ h with handed := ?_, within := ?_, room := ?_, acked := ?_, waiting := ?_ }, ?_⟩
  · rw [hsplit, ← hlen, take_append]
    simp
  · rw [hsplit, length_append, ← hlen, length_cons]
    exact Nat.add_le_add_left (Nat.le_add_left 1 _) _
  · exact (Finset.card_insert_le _ _).trans (h.size ▸ hroom)
  · exact fun i hi => hindexed (h.acked i hi)
  · intro i hi
    rcases Finset.mem_insert.1 hi with rfl | hi
    · exact ⟨⟨chunk, by simp, rfl⟩, fun hack => hnew (h.acked _ hack)⟩
    · exact ⟨hindexed (h.waiting i hi).1, (h.waiting i hi).2⟩
  · rw [hsplit, ← hlen, drop_append]
    simp

lemma Sound.sendFrom {rest} (h : t.Sound s out) (hrest : rest = t.chunks.drop s.nextUnsent) :
    t.Sound (sendFrom rest s).1 (out ++ (sendFrom rest s).2) := by
  induction rest generalizing s out with
  | nil =>
    rw [OutboundTransferState.sendFrom, append_nil]
    exact h
  | cons chunk rest ih =>
    unfold OutboundTransferState.sendFrom
    split
    · rename_i hroom
      obtain ⟨hsound, hleft⟩ := h.push hrest hroom
      dsimp only
      rw [append_cons]
      exact ih hsound hleft
    · rw [append_nil]
      exact h

end Transfer

end OfflineProtocol.FileTransfer

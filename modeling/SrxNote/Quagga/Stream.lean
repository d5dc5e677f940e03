import SrxNote.Misc.Octets

/-!
# Quagga streams

The part of Quagga's stream library that the patch uses. A stream that is read
is the list of octets between its `getp` and its `endp`, so `STREAM_READABLE` is
its length; a read that asks for more than is left reports it, gives 0 (or
leaves its target as it is) and does not move `getp`. A stream that is written
is the list of octets up to its `endp`, with room for everything that is put.
-/

namespace SrxNote.Quagga

/-- The octets of a stream: the unread ones when it is read, all of them when it is written. -/
abbrev Stream := List UInt8

/-- `stream_getc`. -/
def streamGetc : Stream → UInt8 × Stream
  | a :: s => (a, s)
  | s => (0, s)

/-- `stream_getw`. -/
def streamGetw : Stream → UInt16 × Stream
  | a :: b :: s => (ofBe16 a b, s)
  | s => (0, s)

/-- `stream_getl`. -/
def streamGetl : Stream → UInt32 × Stream
  | a :: b :: c :: d :: s => (ofBe32 a b c d, s)
  | s => (0, s)

/-- `stream_getw_from` at the stream's own `getp`. -/
def streamGetwFrom (s : Stream) : UInt16 := (streamGetw s).1

/-- `stream_get (dst, s, size)`: the new content of `dst` and the stream. -/
def streamGet (dst : List UInt8) (s : Stream) (size : Nat) : List UInt8 × Stream :=
  if s.length < size then (dst, s) else (s.take size, s.drop size)

/-- `stream_putc`. -/
def streamPutc (s : Stream) (c : UInt8) : Stream := s ++ [c]

/-- `stream_putw`. -/
def streamPutw (s : Stream) (w : UInt16) : Stream := s ++ be16 w

/-- `stream_putl`. -/
def streamPutl (s : Stream) (l : UInt32) : Stream := s ++ be32 l

/-- `stream_put`. -/
def streamPut (s : Stream) (src : List UInt8) : Stream := s ++ src

/-- `stream_putw_at (s, putp, w)`: overwrite the two octets at `putp`, which lie below `endp`. -/
def streamPutwAt (s : Stream) (putp : Nat) (w : UInt16) : Stream :=
  s.take putp ++ be16 w ++ s.drop (putp + 2)

@[simp] theorem streamGetc_cons (a : UInt8) (s : Stream) : streamGetc (a :: s) = (a, s) := rfl

@[simp] theorem streamGetw_be16 (w : UInt16) (s : Stream) :
    streamGetw (be16 w ++ s) = (w, s) := by
  rw [be16, List.cons_append, List.cons_append, List.nil_append, streamGetw, ofBe16_be16]

@[simp] theorem streamGetl_be32 (l : UInt32) (s : Stream) :
    streamGetl (be32 l ++ s) = (l, s) := by
  rw [be32, List.cons_append, List.cons_append, List.cons_append, List.cons_append,
    List.nil_append, streamGetl, ofBe32_be32]

theorem streamGet_of_not_lt {dst : List UInt8} {s : Stream} {size : Nat}
    (h : ¬ s.length < size) : streamGet dst s size = (s.take size, s.drop size) := by
  rw [streamGet, if_neg h]

theorem streamGet_append (dst src : List UInt8) (s : Stream) :
    streamGet dst (src ++ s) src.length = (src, s) := by
  rw [streamGet_of_not_lt (by simp), List.take_left, List.drop_left]

/-- With two octets left a word is read from them. -/
theorem streamGetw_of_le {s : Stream} (h : 2 ≤ s.length) :
    ∃ s', s = be16 (streamGetw s).1 ++ s' ∧ (streamGetw s).2 = s' := by
  match s, h with
  | a :: b :: s', _ => exact ⟨s', by rw [streamGetw, be16_ofBe16]; rfl, rfl⟩

/-- With fewer than two octets left a word reads as 0 and nothing is consumed. -/
theorem streamGetw_of_lt {s : Stream} (h : s.length < 2) : streamGetw s = (0, s) := by
  match s, h with
  | [], _ => rfl
  | [_], _ => rfl

theorem streamGetw_length (s : Stream) :
    (streamGetw s).2.length = if s.length < 2 then s.length else s.length - 2 := by
  split
  · rename_i h
    rw [streamGetw_of_lt h]
  · rename_i h
    obtain ⟨s', hs, hs'⟩ := streamGetw_of_le (Nat.le_of_not_lt h)
    rw [hs', hs, List.length_append, be16_length]
    omega

theorem streamGet_length (dst : List UInt8) (s : Stream) (size : Nat) :
    (streamGet dst s size).2.length = if s.length < size then s.length else s.length - size := by
  unfold streamGet
  split <;> simp

/-- Reading `size` octets into a buffer of that size leaves one of that size. -/
theorem streamGet_dst_length {dst : List UInt8} (s : Stream) {size : Nat}
    (h : dst.length = size) : (streamGet dst s size).1.length = size := by
  unfold streamGet
  split
  · exact h
  · rw [List.length_take]
    omega

/-- Overwriting the word at `endp` of a prefix. -/
theorem streamPutwAt_append (s t : Stream) (v w : UInt16) :
    streamPutwAt (s ++ be16 v ++ t) s.length w = s ++ be16 w ++ t := by
  have hs : (s ++ be16 v ++ t).take s.length = s := by
    rw [List.append_assoc, List.take_left]
  have ht : (s ++ be16 v ++ t).drop (s.length + 2) = t := by
    have hlen : s.length + 2 = (s ++ be16 v).length := by simp
    rw [hlen, List.drop_left]
  rw [streamPutwAt, hs, ht]

end SrxNote.Quagga

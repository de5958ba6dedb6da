import Mathlib.Algebra.Order.Ring.Int
import Mathlib.Data.List.Basic
import Mathlib.Data.List.Induction

/-!
# The rewrite difference buffer

What the parent executes while a child rewrites the append only file is appended to
blocks, and sent to the child through a pipe that takes any part of it.
-/

namespace Redisoo
namespace RewriteBuffer

open List

def AOF_RW_BUF_BLOCK_SIZE : Nat := 1024 * 1024 * 10

/-- `buf` is the part of the buffer in use. -/
structure Aofrwblock where
  used : Nat
  free : Nat
  buf : List UInt8
  length : buf.length = used
  size : used + free = AOF_RW_BUF_BLOCK_SIZE

def Aofrwblock.fill (b : Aofrwblock) (s : List UInt8) : Aofrwblock × List UInt8 :=
  let thislen := if b.free < s.length then b.free else s.length
  (⟨b.used + thislen, b.free - thislen, b.buf ++ s.take thislen, by grind [b.length],
    by grind [b.size]⟩, s.drop thislen)

def newBlocks (s : List UInt8) : List Aofrwblock :=
  if s = [] then []
  else
    let r := Aofrwblock.fill ⟨0, AOF_RW_BUF_BLOCK_SIZE, [], rfl, Nat.zero_add _⟩ s
    r.1 :: newBlocks r.2
termination_by s.length
decreasing_by
  have hpos := length_pos_iff.mpr ‹Not (s = [])›
  simp only [Aofrwblock.fill, AOF_RW_BUF_BLOCK_SIZE, length_drop]
  grind

def aofRewriteBufferAppend : List Aofrwblock -> List UInt8 -> List Aofrwblock
  | [], s => newBlocks s
  | [block], s => (block.fill s).1 :: newBlocks (block.fill s).2
  | b :: b' :: rest, s => b :: aofRewriteBufferAppend (b' :: rest) s

/-- The blocks that stay and the bytes that are sent, for some results of `write()`. -/
def aofChildWriteDiffData (stop : Bool) :
    List Aofrwblock -> List Int -> List Aofrwblock × List UInt8
  | [], _ => ([], [])
  | block :: rest, writes =>
    if stop then (block :: rest, [])
    else if block.used = 0 then aofChildWriteDiffData stop rest writes
    else
      match writes with
      | [] => (block :: rest, [])
      | n :: writes =>
        if n ≤ 0 then (block :: rest, [])
        else
          let nwritten := min n.toNat block.used
          let r := aofChildWriteDiffData stop
            (⟨block.used - nwritten, block.free + nwritten, block.buf.drop nwritten,
              by grind [block.length], by grind [block.size]⟩ :: rest) writes
          (r.1, block.buf.take nwritten ++ r.2)
termination_by blocks writes => blocks.length + writes.length

def aofRewriteBufferSize (blocks : List Aofrwblock) : Nat :=
  (blocks.map Aofrwblock.used).sum

structure Rewrite where
  blocks : List Aofrwblock := []
  stopSendingDiff : Bool := false
  sent : List UInt8 := []

inductive Event where
  | append (s : List UInt8)
  | writable (writes : List Int)
  | stopSending

def step (r : Rewrite) : Event -> Rewrite
  | .append s => { r with blocks := aofRewriteBufferAppend r.blocks s }
  | .writable writes =>
    let out := aofChildWriteDiffData r.stopSendingDiff r.blocks writes
    { r with blocks := out.1, sent := r.sent ++ out.2 }
  | .stopSending => { r with stopSendingDiff := true }

def Event.appended : Event -> List UInt8
  | .append s => s
  | _ => []

@[simp] def content (blocks : List Aofrwblock) : List UInt8 :=
  blocks.flatMap Aofrwblock.buf

@[simp] theorem fill_append (b : Aofrwblock) (s : List UInt8) :
    (b.fill s).1.buf ++ (b.fill s).2 = b.buf ++ s := by
  simp [Aofrwblock.fill]

theorem content_newBlocks (s : List UInt8) : content (newBlocks s) = s := by
  fun_induction newBlocks s with
  | case1 => rfl
  | case2 s _ r ih =>
    rw [content, flatMap_cons, ← content, ih]
    exact fill_append _ s

theorem content_append (blocks : List Aofrwblock) (s : List UInt8) :
    content (aofRewriteBufferAppend blocks s) = content blocks ++ s := by
  fun_induction aofRewriteBufferAppend blocks s with
  | case1 s => exact content_newBlocks s
  | case2 block s =>
    rw [content, flatMap_cons, ← content, content_newBlocks, fill_append]
    simp
  | case3 b b' rest s ih =>
    rw [content, flatMap_cons, ← content, ih]
    simp

theorem content_writeDiff (stop : Bool) (blocks : List Aofrwblock) (writes : List Int) :
    (aofChildWriteDiffData stop blocks writes).2 ++
      content (aofChildWriteDiffData stop blocks writes).1 = content blocks := by
  fun_induction aofChildWriteDiffData stop blocks writes with
  | case3 block rest writes _ hused ih =>
    have hnil := length_eq_zero_iff.mp (block.length.trans hused)
    rw [ih, content, content, flatMap_cons, hnil, nil_append]
  | case6 block rest _ _ n writes _ nwritten r ih =>
    rw [append_assoc, ih]
    simp [← append_assoc]
  | _ => rfl

theorem step_exact (r : Rewrite) (ev : Event) :
    (step r ev).sent ++ content (step r ev).blocks =
      r.sent ++ content r.blocks ++ ev.appended := by
  cases ev with
  | append s =>
    rw [step, content_append, ← append_assoc]
    rfl
  | writable writes =>
    rw [step, append_assoc, content_writeDiff]
    exact (append_nil _).symm
  | stopSending => exact (append_nil _).symm

/-- After any appends and partial writes, the bytes sent and those buffered are what was
appended, in order, and the size is the number of those buffered. -/
theorem rewrite_buffer_exact (evs : List Event) :
    let r := evs.foldl step {}
    r.sent ++ content r.blocks = evs.flatMap Event.appended ∧
      aofRewriteBufferSize r.blocks = (content r.blocks).length := by
  intro r
  refine ⟨?_, by simp [aofRewriteBufferSize, length_flatMap, Aofrwblock.length]⟩
  induction evs using reverseRecOn with
  | nil => rfl
  | append_singleton evs ev ih =>
    simp only [r, foldl_concat, step_exact, ih, flatMap_append, flatMap_singleton]

end RewriteBuffer
end Redisoo

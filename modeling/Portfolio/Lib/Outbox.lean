import Mathlib.Data.List.Basic

/-!
# Outboxes

A message that is handed to a connection is first `posted`: a handler that runs later moves it to
`queue`. One write is under way at a time, of the head of `queue`, which stays there until the write is
done. `Intact` says that nothing of what was handed over is lost or out of order, and `Cut` what is left
of that once handlers drop messages.
-/

namespace Portfolio

structure Outbox (μ : Type) where
  posted : List μ := []
  queue : List μ := []
  pending : Bool := false

namespace Outbox
variable {μ : Type} {o : Outbox μ} {all wire : List μ}

def post (o : Outbox μ) (ms : List μ) : Outbox μ := { o with posted := o.posted ++ ms }

/-- The handler of the next message; it starts a write when none is under way. -/
def pass (o : Outbox μ) : Outbox μ :=
  match o.posted with
  | [] => o
  | m :: posted =>
    { posted := posted, queue := o.queue ++ [m], pending := o.pending || o.queue.isEmpty }

/-- The handler of the next message, when it drops it. -/
def drop (o : Outbox μ) : Outbox μ := { o with posted := o.posted.tail }

/-- A write has succeeded; the next one starts. -/
def done (o : Outbox μ) : Outbox μ :=
  { o with queue := o.queue.tail, pending := !o.queue.tail.isEmpty }

/-- A write has ended otherwise. -/
def halt (o : Outbox μ) : Outbox μ := { o with pending := false }

@[simp] theorem post_nil (o : Outbox μ) : o.post [] = o := by simp [post]

@[simp] theorem post_post (o : Outbox μ) (ms ms' : List μ) : (o.post ms).post ms' = o.post (ms ++ ms') := by
  simp [post]

@[simp] theorem post_queue (o : Outbox μ) (ms : List μ) : (o.post ms).queue = o.queue := rfl

@[simp] theorem drop_queue (o : Outbox μ) : o.drop.queue = o.queue := rfl

@[simp] theorem halt_queue (o : Outbox μ) : o.halt.queue = o.queue := rfl

/-! ### What has become of the messages -/

/-- Of the messages `all`, `wire` are written and the others wait, in order. -/
def Intact (all wire : List μ) (o : Outbox μ) : Prop := wire ++ o.queue ++ o.posted = all

/-- What is written or still queued begins `all`. -/
def Cut (all wire : List μ) (o : Outbox μ) : Prop := wire ++ o.queue <+: all

theorem Intact.cut (h : o.Intact all wire) : o.Cut all wire := ⟨o.posted, h⟩

theorem intact_empty : Intact [] [] ({} : Outbox μ) := rfl

namespace Intact

theorem post (h : o.Intact all wire) (ms : List μ) : (o.post ms).Intact (all ++ ms) wire := by
  have h' : wire ++ o.queue ++ o.posted = all := h
  simp [Intact, Outbox.post, ← h']

theorem pass (h : o.Intact all wire) : o.pass.Intact all wire := by
  unfold Outbox.pass
  split
  · exact h
  · rename_i m posted hposted
    have h' : wire ++ o.queue ++ o.posted = all := h
    rw [hposted] at h'
    simpa [Intact] using h'

/-- The head of the queue is written. -/
theorem done (h : o.Intact all wire) : o.done.Intact all (wire ++ o.queue.take 1) := by
  have h' : wire ++ o.queue ++ o.posted = all := h
  have hqueue : o.queue.take 1 ++ o.queue.tail = o.queue := by
    rw [← List.drop_one, List.take_append_drop]
  show wire ++ o.queue.take 1 ++ o.queue.tail ++ o.posted = all
  rw [List.append_assoc wire, hqueue, h']

theorem halt (h : o.Intact all wire) : o.halt.Intact all wire := h

end Intact

namespace Cut

/-- More is handed over, and the queue stays. -/
theorem of_queue (h : o.Cut all wire) {o' : Outbox μ} (hqueue : o'.queue = o.queue) (ms : List μ) :
    o'.Cut (all ++ ms) wire := by
  unfold Cut
  rw [hqueue]
  exact List.IsPrefix.trans h (List.prefix_append ..)

theorem done (h : o.Cut all wire) : o.done.Cut all (wire ++ o.queue.take 1) := by
  have hqueue : o.queue.take 1 ++ o.queue.tail = o.queue := by
    rw [← List.drop_one, List.take_append_drop]
  show wire ++ o.queue.take 1 ++ o.queue.tail <+: all
  rw [List.append_assoc, hqueue]
  exact h

theorem wire_prefix (h : o.Cut all wire) : wire <+: all := (List.prefix_append ..).trans h

end Cut

/-! ### Progress -/

/-- A write is under way as long as there is something to write. -/
def Working (o : Outbox μ) : Prop := o.pending = !o.queue.isEmpty

namespace Working

theorem post (h : o.Working) (ms : List μ) : (o.post ms).Working := h

theorem pass (h : o.Working) : o.pass.Working := by
  unfold Outbox.pass
  split
  · exact h
  · have h' : o.pending = !o.queue.isEmpty := h
    simp [Working, h']

theorem done (o : Outbox μ) : o.done.Working := rfl

end Working

theorem working_empty : Working ({} : Outbox μ) := rfl

theorem posted_pass (o : Outbox μ) : o.pass.posted = o.posted.tail := by
  unfold pass
  split
  · rename_i h
    rw [h]
    rfl
  · rename_i h
    rw [h]
    rfl

theorem length_pass (o : Outbox μ) :
    o.pass.queue.length + o.pass.posted.length = o.queue.length + o.posted.length := by
  unfold pass
  split
  · rfl
  · rename_i h
    simp [h]
    omega

/-- Nothing waits: everything is written. -/
theorem Intact.all_written (h : o.Intact all wire) (hqueue : o.queue = []) (hposted : o.posted = []) :
    wire = all := by
  have h' : wire ++ o.queue ++ o.posted = all := h
  simpa [hqueue, hposted] using h'

end Outbox
end Portfolio

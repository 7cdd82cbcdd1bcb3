/-!
# The reading side of a message stream

What is outstanding on a stream that is read asynchronously, one message after the other. A read
completes in two steps: its result arrives, which queues the handler, and the handler runs.
-/

namespace Portfolio

/-- Nothing, the handshake, a read, or the handler of a finished read with what it got; `none` is an
error. -/
inductive ReadState (μ : Type) where
  | idle
  | accepting
  | reading
  | completed (result : Option μ)
  deriving DecidableEq

end Portfolio

import ControlChannel.Rehearsal.Node

/-!
Requests under way. Work that waits for answers looks at its questions one after the other in each
poll: one that was not asked is asked, one whose answer is due is heard. Every further poll starts
one question later. Main content: `Inquiry.next`, the next thing to do within a poll.
-/

namespace ControlChannel.Rehearsal

structure Inquiry where
  /-- The questions in the order of the present poll. -/
  order : List Question
  /-- Those not looked at yet in this poll. -/
  left : List Question
  /-- What the questions asked so far come to. -/
  pending : List (Question × Scripted Reply) := []

/-- The next thing to do in a poll. -/
inductive Move where
  /-- Send the next request. -/
  | ask
  /-- Take the answer that is due. -/
  | hear (question : Question) (scripted : Scripted Reply)
  /-- Nothing is left in this poll. -/
  | rest

namespace Inquiry

/-- All questions that are asked together with this one. -/
def together : Question → List Question
  | .survey _ => Surveys.order.map .survey
  | q => [q]

/-- An inquiry in its first poll. -/
def start (first : Question) : Inquiry :=
  { order := together first, left := together first }

/-- The inquiry in its next poll. -/
def renew (i : Inquiry) : Inquiry :=
  let order := i.order.drop 1 ++ i.order.take 1
  { i with order, left := order }

def put (i : Inquiry) (q : Question) (s : Scripted Reply) : Inquiry :=
  { i with pending := (q, s) :: i.pending.filter (·.1 != q) }

/-- Looks at the questions `left` in turn. `ask` says what a question comes to that has just been
asked. -/
def nextOf (waiting : List Question) (unsent : Option Question) (now : Nat)
    (ask : Question → Scripted Reply) (i : Inquiry) : List Question → Move × Inquiry
  | [] => (.rest, { i with left := [] })
  | q :: rest =>
    if unsent = some q then (.ask, { i with left := q :: rest })
    else if q ∈ waiting then
      let s := (i.pending.lookup q).getD (ask q)
      if s.isDue now then (.hear q s, { i.put q .never with left := rest })
      else nextOf waiting unsent now ask (i.put q s) rest
    else nextOf waiting unsent now ask i rest

/-- The next thing to do in the present poll. -/
def next (i : Inquiry) (waiting : List Question) (unsent : Option Question) (now : Nat)
    (ask : Question → Scripted Reply) : Move × Inquiry :=
  nextOf waiting unsent now ask i i.left

/-- When an answer comes next. -/
def due? (i : Inquiry) : Option Nat := (i.pending.filterMap (·.2.due)).min?

end Inquiry

end ControlChannel.Rehearsal

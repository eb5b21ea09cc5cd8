import LidarPublisher.Udp.Isolation

/-!
# Whether the receiver stays armed

`sockethandler::initialize` starts one `async_receive_from`; every further one
is started by the handler of the last.  The exits of `handle_receive` for a
parsed message start the next receive, the exit for an error does not, and a
completion that never comes cannot start one either.
-/

namespace LidarPublisher.Udp.Receiver

open LidarPublisher.Lib.Run
open LidarPublisher.Udp.ParseRequest
open LidarPublisher.Udp.HandleReceive
open LidarPublisher.Udp.Isolation (hear acceptsWhen)

variable {ω : Type} (verifyToken : List UInt8 → ω → Int × ω)

/-- A datagram or an error completes the outstanding receive; with none
outstanding it is not noticed.  The result is that of `parseRequest`, where it
was called. -/
def arrive (n : Node) (e : Completion × ω) : Option Int × Node :=
  if n.socket.outstanding = 0 then (none, n)
  else ((complete verifyToken e.1 n e.2).1, hear verifyToken n e)

/-- The node after an arrival. -/
def afterArrival (n : Node) (e : Completion × ω) : Node :=
  (arrive verifyToken n e).2

/-- One receive is outstanding and the next datagram reaches `parseRequest`. -/
structure Hearing (n : Node) : Prop where
  armed : n.socket.outstanding = 1
  parses : ∀ d w,
    (arrive verifyToken n ({ datagram := d, error := .success }, w)).1.isSome

/-! ## One completion -/

@[simp] theorem startReceive_outstanding (n : Node) :
    (startReceive n).socket.outstanding = n.socket.outstanding + 1 := rfl

/-- Every result of `parseRequest` starts exactly one receive. -/
theorem respond_outstanding (res : Int) (n : Node) :
    (respond res n).socket.outstanding = n.socket.outstanding + 1 := by
  rw [respond_eq, startReceive_outstanding]

/-- The error exit starts none. -/
theorem outstanding_hear (n : Node) (e : Completion × ω) :
    (hear verifyToken n e).socket.outstanding =
      if e.1.error = .other then n.socket.outstanding - 1
      else n.socket.outstanding - 1 + 1 := by
  rcases e with ⟨⟨d, error⟩, w⟩
  unfold hear complete handleReceive
  cases error with
  | success => exact respond_outstanding _ _
  | messageSize => exact respond_outstanding _ _
  | other => rfl

/-- A deaf receiver stays as it is. -/
theorem afterArrival_of_deaf {n : Node} (h : n.socket.outstanding = 0)
    (e : Completion × ω) : afterArrival verifyToken n e = n := by
  unfold afterArrival arrive
  rw [if_pos h]

/-- An armed receiver is armed again unless the completion is an error. -/
theorem outstanding_afterArrival {n : Node} (h : n.socket.outstanding = 1)
    (e : Completion × ω) :
    (afterArrival verifyToken n e).socket.outstanding =
      if e.1.error = .other then 0 else 1 := by
  have hne : n.socket.outstanding ≠ 0 := by omega
  unfold afterArrival arrive
  rw [if_neg hne]
  show (hear verifyToken n e).socket.outstanding = _
  rw [outstanding_hear, h]

/-- An armed receiver hands the next datagram to `parseRequest`. -/
theorem hearing_of_armed {n : Node} (h : n.socket.outstanding = 1) :
    Hearing verifyToken n := by
  refine ⟨h, fun d w => ?_⟩
  have hne : n.socket.outstanding ≠ 0 := by omega
  unfold arrive
  rw [if_neg hne, complete_success]
  rfl

/-! ## All completions -/

/-- One error is enough to make the receiver deaf for good. -/
theorem outstanding_of_deaf {n : Node} (h : n.socket.outstanding = 0)
    (es : List (Completion × ω)) :
    (runFrom (afterArrival verifyToken) n es).socket.outstanding = 0 :=
  inv_runFrom (fun m => m.socket.outstanding = 0)
    (fun m e hm => by rw [afterArrival_of_deaf verifyToken hm e, hm]) n es h

/-- At the end of a run from an armed state one receive is outstanding, or, if
an error occurred, none. -/
theorem outstanding_runFrom {n : Node} (h : n.socket.outstanding = 1)
    (es : List (Completion × ω)) :
    (runFrom (afterArrival verifyToken) n es).socket.outstanding =
      if ∀ e ∈ es, e.1.error ≠ .other then 1 else 0 := by
  induction es generalizing n with
  | nil => simpa using h
  | cons e es ih =>
      have hstep := outstanding_afterArrival verifyToken h e
      rw [runFrom_cons]
      by_cases herr : e.1.error = .other
      · rw [if_pos herr] at hstep
        rw [outstanding_of_deaf verifyToken hstep, if_neg]
        exact fun hall => hall e (List.mem_cons_self ..) herr
      · rw [if_neg herr] at hstep
        rw [ih hstep]
        have hcons : (∀ a ∈ e :: es, a.1.error ≠ .other) ↔
            ∀ a ∈ es, a.1.error ≠ .other := by
          rw [List.forall_mem_cons]
          exact and_iff_right herr
        simp only [hcons]

/-- **The receiver hears until the first error.**  In every state of a run from
`initialize` exactly one receive is outstanding and the next datagram is parsed,
if and only if no completion of the run carries an error other than
`message_size`. -/
theorem hearing_forever_iff (garbage : Buf) (es : List (Completion × ω)) :
    (∀ pre, pre <+: es →
      Hearing verifyToken
        (runFrom (afterArrival verifyToken) (Node.init garbage) pre)) ↔
      ∀ e ∈ es, e.1.error ≠ .other := by
  have hinit : (Node.init garbage).socket.outstanding = 1 := rfl
  constructor
  · intro h e he herr
    have harmed := (h es (List.prefix_refl es)).armed
    rw [outstanding_runFrom verifyToken hinit, if_neg] at harmed
    · exact absurd harmed (by decide)
    · exact fun hall => hall e he herr
  · intro h pre hpre
    apply hearing_of_armed
    rw [outstanding_runFrom verifyToken hinit, if_pos]
    exact fun e he => h e (hpre.subset he)

/-- One error completion right after `initialize`, say `connection_refused`. -/
theorem not_hearing_forever :
    ¬∀ (garbage : Buf) (es : List (Completion × Bool)),
      Hearing acceptsWhen
        (runFrom (afterArrival acceptsWhen) (Node.init garbage) es) := by
  intro h
  have harmed := (h (Vector.replicate readBufSize 0)
    [({ datagram := { bytes := [], fits := by decide }, error := .other }, true)]).armed
  exact absurd harmed (by decide)

end LidarPublisher.Udp.Receiver

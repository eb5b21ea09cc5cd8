import LidarPublisher.System.Step

/-!
# A process that lost its socket

The first error of the socket is the last thing the process hears.  From then on
a run is the run without its datagrams: the publisher thread goes on with the
flag as it stands, and no request can start or stop it.
-/

namespace LidarPublisher.System.Deaf

open LidarPublisher.Lib.Run
open LidarPublisher.Lib.Simulation
open LidarPublisher.Sqlite.Execute
open LidarPublisher.Token.Acceptance (sixteenAsTable)
open LidarPublisher.Token.Query (noon)
open LidarPublisher.Udp
open LidarPublisher.Udp.ParseRequest
open LidarPublisher.Udp.HandleReceive
open LidarPublisher.System.Step

variable (e : Engine)

/-- A completion of the run is one of the receiver's. -/
theorem mem_trace {p : Process} {es : List Event} {c : Completion} {o : Occasion}
    (h : .completion c o ∈ es) : ∃ w, (c, w) ∈ (receiver e).trace p es := by
  induction es generalizing p with
  | nil => exact absurd h List.not_mem_nil
  | cons ev es ih =>
      rw [View.trace_cons]
      rcases List.mem_cons.mp h with rfl | hrest
      · exact ⟨(p.db, o), List.mem_append_left _ (List.mem_singleton.mpr rfl)⟩
      · rcases ih (p := step e p ev) hrest with ⟨w, hw⟩
        exact ⟨w, List.mem_append_right _ hw⟩

/-- After an error no receive operation is outstanding. -/
theorem outstanding_of_error (garbage : Buf) (table : Table) {es : List Event}
    {c : Completion} {o : Occasion} (h : .completion c o ∈ es)
    (herr : c.error = .other) :
    (Process.after e garbage table es).node.socket.outstanding = 0 := by
  rcases mem_trace e (p := Process.init garbage table) h with ⟨w, hw⟩
  have hnode := (receiver e).state_runFrom (Process.init garbage table) es
  change (Process.after e garbage table es).node =
    runFrom (Receiver.afterArrival (oracle e)) (Node.init garbage) _ at hnode
  rw [hnode, Receiver.outstanding_runFrom _ rfl, if_neg]
  exact fun hall => hall _ hw herr

/-- The event is not a datagram, nor anything else the socket reports. -/
def isLocal : Event → Bool
  | .completion _ _ => false
  | _ => true

/-- What a step of a deaf process does. -/
theorem step_of_deaf {p : Process} (h : p.node.socket.outstanding = 0)
    (ev : Event) :
    (step e p ev).node = p.node ∧ (isLocal ev = false → step e p ev = p) := by
  cases ev with
  | completion c o =>
      have hsame : step e p (.completion c o) = p := if_pos h
      rw [hsame]
      exact ⟨rfl, fun _ => rfl⟩
  | write table => exact ⟨rfl, fun hlocal => absurd hlocal (by simp [isLocal])⟩
  | start => exact ⟨rfl, fun hlocal => absurd hlocal (by simp [isLocal])⟩
  | rosShutdown => exact ⟨rfl, fun hlocal => absurd hlocal (by simp [isLocal])⟩
  | publisher ros => exact ⟨rfl, fun hlocal => absurd hlocal (by simp [isLocal])⟩

/-- **Nothing is heard after an error.**  Once the socket reported an error other
than `message_size`, a run is the run without its completions, and the node with
its token and its polling flag stays as it is. -/
theorem after_error (garbage : Buf) (table : Table) (pre post : List Event)
    (c : Completion) (o : Occasion) (h : .completion c o ∈ pre)
    (herr : c.error = .other) :
    Process.after e garbage table (pre ++ post) =
        Process.after e garbage table (pre ++ post.filter isLocal) ∧
      (Process.after e garbage table (pre ++ post)).node =
        (Process.after e garbage table pre).node := by
  have hdeaf := outstanding_of_error e garbage table h herr
  rw [after_append, after_append]
  generalize Process.after e garbage table pre = p at hdeaf ⊢
  induction post generalizing p with
  | nil => exact ⟨rfl, rfl⟩
  | cons ev post ih =>
      rcases step_of_deaf e hdeaf ev with ⟨hnode, hsame⟩
      rcases ih (step e p ev) (hnode ▸ hdeaf) with ⟨hfilter, hkept⟩
      refine ⟨?_, hkept.trans hnode⟩
      rw [runFrom_cons, hfilter]
      cases hlocal : isLocal ev with
      | true => rw [List.filter_cons_of_pos hlocal, runFrom_cons]
      | false =>
          rw [List.filter_cons_of_neg (by simp [hlocal]), hsame hlocal]

/-- A stop request after an error. -/
theorem after_error_stop :
    Process.after Engine.plain (Vector.replicate readBufSize 0) sixteenAsTable
        ([.start, send .start fieldOfAs (.at noon),
            .completion { datagram := { bytes := [], fits := by decide }
                          error := .other } (.at noon)] ++
          [send .stop fieldOfAs (.at noon), tick]) =
      Process.after Engine.plain (Vector.replicate readBufSize 0) sixteenAsTable
        ([.start, send .start fieldOfAs (.at noon),
            .completion { datagram := { bytes := [], fits := by decide }
                          error := .other } (.at noon)] ++ [tick]) :=
  (after_error Engine.plain (Vector.replicate readBufSize 0) sixteenAsTable
    [.start, send .start fieldOfAs (.at noon),
      .completion { datagram := { bytes := [], fits := by decide }
                    error := .other } (.at noon)]
    [send .stop fieldOfAs (.at noon), tick] _ _
    (List.mem_cons_of_mem _ (List.mem_cons_of_mem _ (List.mem_singleton.mpr rfl)))
    rfl).1

end LidarPublisher.System.Deaf

import LidarPublisher.Polling.Throughput
import LidarPublisher.System.Delivery

/-!
# What the whole process publishes

The publisher thread is seen through two views, the one that forgets the database
and the one that forgets the request handler.  What is known of the thread on its
own so holds of the process, whatever the datagrams, the SQLite calls and the
other writers of the table do.
-/

namespace LidarPublisher.System.Publishing

open LidarPublisher.Lib.Run
open LidarPublisher.Lib.Simulation
open LidarPublisher.Sqlite.Execute
open LidarPublisher.Token.Query (noon)
open LidarPublisher.Token.Acceptance
open LidarPublisher.Udp.ParseRequest
open LidarPublisher.Polling.StartPolling (Publisher System.inv_init)
open LidarPublisher.Polling.Thread
open LidarPublisher.Polling.Throughput
open LidarPublisher.System.Step
open LidarPublisher.System.Delivery (isThread)

variable (e : Engine)

/-- The publisher thread of the process. -/
def publisher : View (step e) advance :=
  (thread (oracle e)).comp (system e)

/-- What the thread sees of one event. -/
theorem publisher_events (p : Process) (ev : Event) :
    (publisher e).events p ev =
      match ev with
      | .start => [.start]
      | .rosShutdown => [.rosShutdown]
      | .publisher ros => [.step p.node.server.polling ros]
      | _ => [] := by
  cases ev with
  | completion c o =>
      show (thread (oracle e)).trace _ (if _ then _ else _) = _
      split
      · rfl
      · rfl
  | write table => rfl
  | start => rfl
  | rosShutdown => rfl
  | publisher ros => rfl

/-- The clock readings offered to the thread in a run of the process. -/
def readings (es : List Event) : List Nat :=
  es.filterMap fun ev =>
    match ev with
    | .publisher ros => some ros.now
    | _ => none

theorem length_readings (es : List Event) :
    (readings es).length = es.countP isThread := by
  rw [readings, List.length_filterMap_eq_countP]
  congr 1
  funext ev
  cases ev <;> rfl

theorem clock_publisher (p : Process) (es : List Event) :
    clock ((publisher e).trace p es) = readings es := by
  refine View.filterMap_trace _ (fun q ev => ?_) p es
  rw [publisher_events]
  cases ev <;> rfl

theorem rosShutdown_notMem_publisher {es : List Event}
    (h : Event.rosShutdown ∉ es) (p : Process) :
    Input.rosShutdown ∉ (publisher e).trace p es := by
  intro hmem
  rcases View.exists_of_mem_trace _ hmem with ⟨q, ev, hev, hevent⟩
  rw [publisher_events] at hevent
  cases ev with
  | completion c o => exact absurd hevent List.not_mem_nil
  | write table => exact absurd hevent List.not_mem_nil
  | start => exact absurd (List.mem_singleton.mp hevent) (by simp)
  | rosShutdown => exact h hev
  | publisher ros => exact absurd (List.mem_singleton.mp hevent) (by simp)

/-- The thread after a run of the process is the thread after its own run. -/
theorem publisher_after (garbage : Buf) (table : Table) (pre post : List Event) :
    (Process.after e garbage table (pre ++ post)).publisher =
      runFrom advance (Process.after e garbage table pre).publisher
        ((publisher e).trace (Process.after e garbage table pre) post) := by
  rw [after_append]
  exact (publisher e).state_runFrom _ post

/-- **The sweep of the process.**  Once the thread is in its innermost loop, every
two of its steps add the message due, until ROS ends: the readings of consecutive
bearings, stamped with clock readings in order. -/
theorem published_from (garbage : Buf) (table : Table) (pre post : List Event)
    (hin : (Process.after e garbage table pre).publisher.Inside)
    (hros : Event.rosShutdown ∉ post) :
    let p := (Process.after e garbage table pre).publisher
    ∃ stamps more, p.published = messages p.frameId stamps ∧
      (Process.after e garbage table (pre ++ post)).publisher.published =
        messages p.frameId (stamps ++ more) ∧
      more.Sublist (readings post) ∧
      more.length =
        (post.countP isThread + if p.pc = .body then 1 else 0) / 2 := by
  intro p
  have hpre : p = runFrom advance Publisher.init
      ((publisher e).trace (Process.init garbage table) pre) :=
    (publisher e).state_runFrom _ pre
  rcases inv_init.runFrom ((publisher e).trace (Process.init garbage table) pre)
    with ⟨stamps, -, hinv⟩
  rw [← hpre, List.nil_append] at hinv
  have hp : p.Inv := by
    rw [hpre]
    exact inv_runFrom (fun q : Publisher => q.Inv)
      (fun _ input h => inv_advance h input) _ _
      (System.inv_init garbage).publisher
  have hq : (Process.after e garbage table (pre ++ post)).publisher =
      runFrom advance p
        ((publisher e).trace (Process.after e garbage table pre) post) :=
    publisher_after e garbage table pre post
  rcases progress_runFrom hp hin (rosShutdown_notMem_publisher e hros
    (Process.after e garbage table pre)) with ⟨-, hname, hprogress⟩
  rcases hinv.runFrom ((publisher e).trace (Process.after e garbage table pre) post)
    with ⟨more, hsub, hinv'⟩
  rw [clock_publisher] at hsub hprogress
  rw [length_readings] at hprogress
  have hgrown : (runFrom advance p ((publisher e).trace
      (Process.after e garbage table pre) post)).published =
      messages p.frameId (stamps ++ more) := hname ▸ hinv'.published
  refine ⟨stamps, more, hinv.published, hq ▸ hgrown, hsub, ?_⟩
  unfold progress at hprogress
  rw [hgrown, hinv.published, length_messages, length_messages,
    List.length_append] at hprogress
  have hlast : (if (runFrom advance p ((publisher e).trace
      (Process.after e garbage table pre) post)).pc = .body then 1 else 0) ≤ 1 := by
    split <;> decide
  omega

/-- A stop request heard during an iteration stops neither it nor the next. -/
example :
    (Process.after Engine.plain (Vector.replicate readBufSize 0) sixteenAsTable
        ([.start, send .start fieldOfAs (.at noon), tick, tick, tick] ++
          [send .stop fieldOfAs (.at noon), .publisher { now := 5, frameId := none },
            tick, .publisher { now := 7, frameId := none }])).publisher.published =
      messages "lidar_scanner" [5, 7] := by
  decide +kernel

end LidarPublisher.System.Publishing

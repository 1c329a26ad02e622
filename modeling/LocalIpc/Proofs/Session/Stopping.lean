import LocalIpc.Proofs.Pipe.Misuse
import LocalIpc.Proofs.Unix.Misuse
import LocalIpc.Session.Loop
/-!
# When service stops

With its flag set the accept loop stops in good order only at an error of misuse. Both kinds of
listeners give an accept such an error only when they are not in service, so a loop that has stopped
in good order has not left a running listener behind.
-/

namespace LocalIpc

/-! ## The end of the loop -/

/-- The loop has stopped because its flag was cleared, or at an error of misuse. -/
theorem Loop.running_of_stopped {σ α : Type} {s : Loop.Service σ α} {handle : α → σ → σ}
    {turns accepted n : Nat} {w w' : σ}
    (h : Loop.serveFrom s handle turns accepted w = (some (.stopped n), w'))
    (hr : s.running w' = true) : ∃ v e, s.accept v = (.error e, w') ∧ e.isMisuse = true := by
  induction turns generalizing accepted w with
  | zero => simp [Loop.serveFrom] at h
  | succ turns ih =>
    unfold Loop.serveFrom at h
    split at h
    rotate_left
    · obtain ⟨-, rfl⟩ := Prod.mk.inj h
      contradiction
    split at h
    · exact ih h
    · rename_i e v haccept
      split at h
      · rename_i hstop
        obtain ⟨-, rfl⟩ := Prod.mk.inj h
        exact ⟨w, e, haccept, by simpa [hr] using hstop⟩
      · simp at h

/-- What is closed is closed for good, on both transports, and an error of misuse tells the truth
about its listener. So the accept loop never takes a running listener for a stopped one. -/
theorem closed_for_good_and_misuse_true :
    (∀ (name : String) (config : PipeConfig) (es : List Pipe.Event),
      Pipe.account.OpensFresh ((Pipe.State.construct name config).run es).history →
      Pipe.ClosedForGood ((Pipe.State.construct name config).run es)) ∧
    (∀ (host : Host) (es : List Unix.Event), Unix.OpensValid es →
      Unix.ClosedForGood ((Unix.State.start host).run es)) ∧
    ∀ (σ α : Type) (s : Loop.Service σ α) (handle : α → σ → σ) (turns n : Nat) (w w' : σ),
      Loop.serve s handle turns w = (some (.stopped n), w') → s.running w' = true →
      ∃ v e, s.accept v = (.error e, w') ∧ e.isMisuse = true :=
  ⟨Pipe.closedForGood_run, Unix.closedForGood_run,
    fun _ _ _ _ _ _ _ _ h hr => Loop.running_of_stopped h hr⟩

/-- A pipe listener is closed from inside the create of an accept, and the accept tells of it when
its instance is given back. A socket listener is given up when its native listen fails, and the
accept that begins inside the native close of that bind waits, but is refused after it. A loop over
a closed listener stops in good order at once. -/
theorem refused_after_close_inside_create :
    let s := (Pipe.State.construct "p" .default).run
      [.reply (.created (.ok ⟨1⟩)), .reply (.done (.ok ())), .start .accept, .start .close,
        .reply (.done (.ok ())), .reply (.created (.ok ⟨2⟩)), .reply (.done (.ok ()))]
    let u := (Unix.State.start .fresh).run
      [.start (.create ⟨1, none, false⟩), .reply (.opened (.ok 5)), .start (.bind 0 [97]),
        .reply (.done (.ok ())), .reply (.done (.error .badDescriptor))]
    let v := u.run [.start (.accept 0), .reply (.done (.ok ()))]
    s.Blames (.reply (.done (.ok ()))) .alreadyClosed ∧
      u.step (.start (.accept 0)) = u ∧
      v.step (.start (.accept 0)) =
        (v.note (.began (.accept 0))).finish (.failed .alreadyClosed) ∧
      let closed : Loop.Service Unit Fd := ⟨fun _ => true, fun w => (.error .alreadyClosed, w)⟩
      Loop.serve closed (fun _ w => w) 1 () = (some (.stopped 0), ()) ∧
        ∃ w e, closed.accept w = (.error e, ()) ∧ e.isMisuse = true := by
  intro s u v
  have hs := closed_for_good_and_misuse_true.1 "p" .default
    [.reply (.created (.ok ⟨1⟩)), .reply (.done (.ok ())), .start .accept, .start .close,
      .reply (.done (.ok ())), .reply (.created (.ok ⟨2⟩)), .reply (.done (.ok ()))] (by decide)
  have hu := closed_for_good_and_misuse_true.2.1 .fresh
    [.start (.create ⟨1, none, false⟩), .reply (.opened (.ok 5)), .start (.bind 0 [97]),
      .reply (.done (.ok ())), .reply (.done (.error .badDescriptor))]
    (by simp [Unix.OpensValid, DescriptorSlot.invalid])
  have hv := closed_for_good_and_misuse_true.2.1 .fresh
    [.start (.create ⟨1, none, false⟩), .reply (.opened (.ok 5)), .start (.bind 0 [97]),
      .reply (.done (.ok ())), .reply (.done (.error .badDescriptor)), .start (.accept 0),
      .reply (.done (.ok ()))] (by simp [Unix.OpensValid, DescriptorSlot.invalid])
  refine ⟨hs.truthful _ _ ?_ rfl, hu.refuses (.accept 0) 0 _ rfl rfl rfl,
    hv.refuses (.accept 0) 0 _ rfl rfl rfl, rfl,
    closed_for_good_and_misuse_true.2.2 Unit Fd _ (fun _ w => w) 1 0 () () rfl rfl⟩
  have hnews : s.news (.reply (.done (.ok ()))) =
    [.replied (.done (.ok ())), .finished (.failed .alreadyClosed)] := rfl
  show _ ∈ s.news (.reply (.done (.ok ())))
  rw [hnews]
  simp

end LocalIpc

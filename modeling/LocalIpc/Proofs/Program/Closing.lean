import LocalIpc.Program.Console
import LocalIpc.Program.Visits
import LocalIpc.Proofs.Session.Serving
/-!
# Commands and the listener they serve with

A command that serves returns from its accept loop in good order, or at an accept that failed while
the flag was set. After a loop that ended in good order it closes its listener before it returns,
whatever its clients did. After the failed accept it returns at once, and the listener stays open.
-/

namespace LocalIpc

variable {σ : Type}

/-! ## What a site promises -/

/-- How the listener of a site and its flag go together; `closed` says that the listener is closed.
Only a close closes it, for good, and nobody raises the flag again. So an accept during which the
listener is closed was interrupted, and an interrupt lowers the flag first. -/
structure Site.Guards (t : Site σ) (closed : σ → Prop) : Prop where
  close : ∀ w, closed (t.close w).2
  stop : ∀ w, closed (t.stop w) ↔ closed w
  release : ∀ h w, closed (t.release h w).2 ↔ closed w
  interrupted : ∀ w, ¬ closed w → closed (t.accept w).2 → t.running (t.accept w).2 = false
  lowers : ∀ w, t.running (t.stop w) = false
  acceptKeeps : ∀ w, t.running w = false → t.running (t.accept w).2 = false
  releaseKeeps : ∀ h w, t.running w = false → t.running (t.release h w).2 = false
  closeKeeps : ∀ w, t.running w = false → t.running (t.close w).2 = false

/-- While the flag is set the listener is open. -/
def Site.Serves (t : Site σ) (closed : σ → Prop) (w : σ) : Prop :=
  closed w → t.running w = false

section Guarded

variable {t : Site σ} {closed : σ → Prop} {w : σ}

theorem Site.Guards.serves_accept (h : t.Guards closed) (hw : t.Serves closed w) :
    t.Serves closed (t.accept w).2 := by
  intro hc
  by_cases hopen : closed w
  · exact h.acceptKeeps w (hw hopen)
  · exact h.interrupted w hopen hc

theorem Site.Guards.serves_stop (h : t.Guards closed) (w : σ) : t.Serves closed (t.stop w) :=
  fun _ => h.lowers w

theorem Site.Guards.serves_release (h : t.Guards closed) (hw : t.Serves closed w) (k : Handle) :
    t.Serves closed (t.release k w).2 :=
  fun hc => h.releaseKeeps k w (hw ((h.release k w).mp hc))

theorem Site.Guards.serves_interrupts (h : t.Guards closed) (hw : t.Serves closed w) (n : Nat) :
    t.Serves closed (t.interrupts n w) := by
  induction n generalizing w with
  | zero => exact hw
  | succ n ih => exact ih fun _ => h.closeKeeps _ (h.lowers w)

/-- What serving a client does to the site keeps the listener open while the flag is set. -/
theorem Site.Guards.serves_visit (h : t.Guards closed) (hw : t.Serves closed w) (c : Client) :
    t.Serves closed (t.release c.handle (t.interrupts c.interrupts w)).2 :=
  h.serves_release (h.serves_interrupts hw c.interrupts) c.handle

end Guarded

/-! ## The commands -/

/-- A report leaves the site as the visit has left it, or stops it. -/
theorem Reporting.world_handle (t : Site σ) (o : Reporting) (c : Client) (w : Work σ) :
    (handle t o c w).world = (t.release c.handle (t.interrupts c.interrupts w.world)).2 ∨
      ∃ v, (handle t o c w).world = t.stop v := by
  have hworld := w.world_leave t "main" c (receive c.reads).failure.isSome
  unfold handle
  dsimp only
  split
  · exact .inr ⟨_, rfl⟩
  · split
    · exact .inr ⟨_, rfl⟩
    · split <;> exact .inl hworld

theorem Echoing.world_handle (t : Site σ) (c : Client) (w : Work σ) :
    (handle t c w).world = (t.release c.handle (t.interrupts c.interrupts w.world)).2 := by
  have hworld := w.world_leave t (worker c.handle) c !(copy c.reads c.writes).result.isOk
  unfold handle
  dsimp only
  split <;> exact hworld

namespace Work

variable {t : Site σ} {closed : σ → Prop} {handle : Client → Work σ → Work σ}
  {farewell : Nat → List LogRecord} {turns : Nat} {w w' : Work σ} {r : Except CommandFailure Unit}

/-- The accept loop ends at an accept that failed while the flag was set. -/
def AcceptFails (t : Site σ) (handle : Client → Work σ → Work σ) (turns : Nat) (w : Work σ)
    (e : ListenerError) : Prop :=
  (Loop.serve (service t) handle turns w).1 = some (.failed e)

theorem world_foldl_note (rs : List LogRecord) (w : Work σ) :
    (rs.foldl note w).world = w.world := by
  induction rs generalizing w with
  | nil => rfl
  | cons r rs ih => exact ih (w.note r)

/-- After a loop that ended in good order the close is the last thing that is done. -/
theorem serve_stopped {n : Nat} {v : Work σ}
    (hloop : Loop.serve (service t) handle turns w = (some (.stopped n), v))
    (h : w.serve t handle farewell turns = (some r, w')) : w'.world = (t.close v.world).2 := by
  unfold serve at h
  rw [hloop] at h
  simp only [world_foldl_note] at h
  split at h <;> exact congrArg world (Prod.mk.inj h).2.symm

/-- After a failed accept only that is noted. -/
theorem serve_failed {e : ListenerError} {v : Work σ}
    (hloop : Loop.serve (service t) handle turns w = (some (.failed e), v))
    (h : w.serve t handle farewell turns = (some r, w')) :
    r = .error (.ofAccept e) ∧ w'.world = v.world := by
  unfold serve at h
  rw [hloop] at h
  obtain ⟨hr, rfl⟩ := Prod.mk.inj h
  exact ⟨(Option.some.inj hr).symm, rfl⟩

/-- A command that has served returns with its listener closed, unless an accept has failed. -/
theorem serve_closes (hg : t.Guards closed)
    (hhandle : ∀ c v, t.Serves closed v.world → t.Serves closed (handle c v).world)
    (hopen : ¬ closed w.world) (h : w.serve t handle farewell turns = (some r, w')) :
    (closed w'.world ↔ ∀ e, ¬ AcceptFails t handle turns w e) ∧
      ∀ e, AcceptFails t handle turns w e → r = .error (.ofAccept e) := by
  rcases hloop : Loop.serve (service t) handle turns w with ⟨_ | n | e, v⟩
  · simp [serve, hloop] at h
  · rw [serve_stopped hloop h]
    simp [AcceptFails, hloop, hg.close]
  · obtain ⟨hr, hworld⟩ := serve_failed hloop h
    -- the loop fails only with its flag set, and then the listener is open
    have hserves : t.Serves closed (Loop.serveFrom (service t) handle turns 0 w).2.world :=
      Loop.serveFrom_invariant (I := fun v : Work σ => t.Serves closed v.world)
        (fun v hv => hg.serves_accept hv) hhandle turns 0 fun hc => absurd hc hopen
    rw [show Loop.serveFrom (service t) handle turns 0 w = _ from hloop] at hserves
    have hset : t.running v.world = true := by
      obtain ⟨cs, u, -, -, hends⟩ := Loop.serve_eq_some_iff.mp hloop
      cases hends with
      | failed _ _ hset _ => exact hset
    have hstill : ¬ closed v.world := fun hc => by simp [hserves hc] at hset
    rw [hworld]
    simp [AcceptFails, hloop, hstill, hr]

end Work

/-! ## When the listener is closed -/

/-- Both commands that serve return with their listener closed, whatever their clients did, unless
the loop ended at an accept that failed with the flag set. Then the listener is open still, and the
command fails with that. -/
theorem listener_closed_iff_no_accept_failed (t : Site σ) (closed : σ → Prop)
    (hg : t.Guards closed) (w : Work σ) (hopen : ¬ closed w.world) (turns : Nat) :
    (∀ (o : Reporting) r w', o.run t turns w = (some r, w') →
      (closed w'.world ↔ ∀ e, ¬ Work.AcceptFails t (o.handle t) turns w e) ∧
        ∀ e, Work.AcceptFails t (o.handle t) turns w e → r = .error (.ofAccept e)) ∧
    ∀ r w', Echoing.run t turns w = (some r, w') →
      (closed w'.world ↔ ∀ e, ¬ Work.AcceptFails t (Echoing.handle t) turns w e) ∧
        ∀ e, Work.AcceptFails t (Echoing.handle t) turns w e → r = .error (.ofAccept e) := by
  constructor
  · intro o r w' h
    refine Work.serve_closes hg (fun c v hv => ?_) hopen h
    rcases Reporting.world_handle t o c v with heq | ⟨u, heq⟩ <;> rw [heq]
    · exact hg.serves_visit hv c
    · exact hg.serves_stop u
  · intro r w' h
    refine Work.serve_closes hg (fun c v hv => ?_) hopen h
    rw [Echoing.world_handle]
    exact hg.serves_visit hv c

/-- The listener of a console is closed by a close alone. -/
theorem Console.guards : site.Guards fun w => w.listener.phase = .closed where
  close w := by
    simp only [site, close]
    split
    · assumption
    · rfl
  stop _ := Iff.rfl
  release _ _ := Iff.rfl
  interrupted w hopen hc := by
    simp only [site, accept] at hc
    split at hc <;> exact absurd hc hopen
  lowers _ := rfl
  acceptKeeps w hr := by
    simp only [site, accept]
    split <;> exact hr
  releaseKeeps _ _ hr := hr
  closeKeeps w hr := by
    simp only [site, close]
    split <;> exact hr

/-- Nobody comes to a console after its client, so its listener is closed in the end. -/
theorem console_closes_its_listener :
    let w : Work Console := .start (Console.bind [0x73] (.start [0x68, 0x69])).2
    let o : Reporting := ⟨[0x73], Unix.transport, .raw, none⟩
    ∃ r v, o.run Console.site 3 w = (some r, v) ∧ v.world.listener.phase = .closed := by
  intro w o
  have hends : (Loop.serve (Work.service Console.site) (o.handle Console.site) 3 w).1 =
      some (.stopped 1) := by decide +kernel
  have hopen : w.world.listener.phase ≠ .closed := by decide
  rcases hrun : o.run Console.site 3 w with ⟨_ | r, v⟩
  · have hsome : (o.run Console.site 3 w).1.isSome = true := by decide +kernel
    simp [hrun] at hsome
  · obtain ⟨hcloses, -⟩ := (listener_closed_iff_no_accept_failed Console.site _ Console.guards w
      hopen 3).1 o r v hrun
    exact ⟨r, v, rfl, hcloses.mpr fun e he => by simp [Work.AcceptFails, hends] at he⟩

/-- A visitor comes and goes, and the accept after that is interrupted by a signal. Either command
has returned with a failure then, its listener is bound still, and the socket file is there. -/
theorem socket_file_stays_after_failed_accept :
    let visits : Visits := .start .fresh [0x73] [⟨.plain, [0x78], []⟩] (some .interrupted)
    ∀ command ∈ [Command.listen [0x73] none, .echo [0x73]],
      let ended := Program.carryOut Visits.site visits.turns .plain .json (.start visits) command
      (ended.1.any fun r => !r.isOk) ∧ ended.2.world.state.listeners.map (·.phase) = [.bound] ∧
        ended.2.world.state.host.tree.listing.map Prod.fst = [[0x73]] := by
  decide +kernel

end LocalIpc

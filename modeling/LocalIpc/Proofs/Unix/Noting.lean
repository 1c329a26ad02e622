import LocalIpc.Unix.State
/-!
# The history is only kept

No step reads what was noted before. So two states that differ in their histories alone go on alike,
and the same is noted of them from then on.
-/

namespace LocalIpc.Unix

namespace State

/-- The state, with something more in its past. -/
def withPast (past : List Entry) (s : State) : State := { s with history := past ++ s.history }

section Recalled

variable (past : List Entry) (s : State) (l : Nat)

theorem withPast_note (e : Entry) : (s.withPast past).note e = (s.note e).withPast past := by
  simp [withPast, note]

theorem withPast_push (f : Frame) (c : Call) :
    (s.withPast past).push f c = (s.push f c).withPast past := by
  unfold push
  exact withPast_note past { s with tasks := f :: s.tasks } (.called c)

theorem withPast_wait (config : UnixConfig) (t : Task) :
    (s.withPast past).wait l config t = (s.wait l config t).withPast past := by
  simp [withPast, wait]

theorem withPast_finish (o : Outcome) : (s.withPast past).finish o = (s.finish o).withPast past :=
  withPast_note past s (.finished o)

theorem withPast_addConnection (c : Connection) (accepted : Bool) :
    (s.withPast past).addConnection c accepted = (s.addConnection c accepted).withPast past := by
  unfold addConnection
  exact withPast_finish past { s with connections := s.connections ++ [some ⟨c, accepted⟩] } _

theorem withPast_closeUnheld :
    (s.withPast past).closeUnheld l = (s.closeUnheld l).withPast past := by
  have hlisteners : (s.withPast past).listeners = s.listeners := rfl
  have hunheld : (s.withPast past).isUnheld l = s.isUnheld l := rfl
  have hhost : (s.withPast past).host = s.host := rfl
  unfold closeUnheld
  rw [hlisteners, hunheld, hhost]
  split
  rotate_left
  · rfl
  rename_i x hx
  split
  rotate_left
  · rfl
  generalize x.beginClose s.host true = begun
  obtain ⟨p, y, host⟩ := begun
  cases p with
  | waits t => exact withPast_wait past { s.setListener l y with host } l y.config t
  | _ => rfl

theorem withPast_advance (config : UnixConfig) (p : Progress) :
    (s.withPast past).advance l config p = (s.advance l config p).withPast past := by
  cases p with
  | waits t => exact withPast_wait past s l config t
  | accepted client =>
    simp only [advance]
    rw [withPast_addConnection, withPast_closeUnheld]
  | done =>
    simp only [advance]
    rw [withPast_finish, withPast_closeUnheld]
  | failed e =>
    simp only [advance]
    rw [withPast_finish, withPast_closeUnheld]
  | _ => rfl

theorem withPast_advanceWith (p : Progress × Listener × Host) :
    (s.withPast past).advanceWith l p = (s.advanceWith l p).withPast past := by
  unfold advanceWith
  exact withPast_advance past { s.setListener l p.2.1 with host := p.2.2 } l _ _

theorem withPast_letGo (i : Nat) (quiet : Bool) :
    (s.withPast past).letGo i quiet = (s.letGo i quiet).withPast past := by
  have hconnection : (s.withPast past).connection? i = s.connection? i := rfl
  unfold letGo
  rw [hconnection]
  split
  · exact withPast_finish past s .gone
  rename_i held hheld
  simp only
  split
  · exact withPast_push past { s with connections := s.connections.set i none } _ _
  · exact withPast_finish past { s with
      connections := s.connections.set i none
      host := (s.host.close held.connection.handle.fd).2 } .done

theorem withPast_withListener {f g : Listener → State} (h : ∀ x, f x = (g x).withPast past) :
    (s.withPast past).withListener l f = (s.withListener l g).withPast past := by
  have hlistener : (s.withPast past).listener? l = s.listener? l := rfl
  unfold withListener
  rw [hlistener]
  split
  · exact h _
  · exact withPast_finish past s .gone

theorem withPast_begin (op : Operation) :
    (s.withPast past).begin op = (s.begin op).withPast past := by
  cases op with
  | create config => exact withPast_push past s _ _
  | bind k path =>
    apply withPast_withListener
    intro x
    exact withPast_advance past { s with host := (x.beginBind s.host path).2 } k x.config _
  | bindSlowly k path | accept k =>
    apply withPast_withListener
    intro x
    exact withPast_advance past s k x.config _
  | close k =>
    apply withPast_withListener
    intro x
    exact withPast_advanceWith past s k _
  | drop k =>
    apply withPast_withListener
    intro x
    have hfinish := withPast_finish past { s with dropped := k :: s.dropped } .done
    rw [← withPast_closeUnheld, ← hfinish]
    rfl
  | connect path =>
    have hhost : (s.withPast past).host = s.host := rfl
    simp only [begin]
    rw [hhost]
    split
    · exact withPast_addConnection past { s with host := _ } _ false
    · exact withPast_finish past { s with host := _ } _
  | closeConnection i => exact withPast_letGo past s i false
  | dropConnection i => exact withPast_letGo past s i true

theorem withPast_perform (op : Operation) :
    (s.withPast past).perform op = (s.perform op).withPast past := by
  have hlocked : (s.withPast past).isLocked = s.isLocked := rfl
  unfold perform
  rw [hlocked]
  split
  · rfl
  · rw [withPast_note]
    exact withPast_begin past (s.note (.began op)) op

theorem withPast_resume (x : Listener) (t : Task) (r : Reply) :
    (s.withPast past).resume l x t r = (s.resume l x t r).withPast past := by
  unfold resume
  split
  · exact withPast_advance past s l x.config _
  · exact withPast_advanceWith past s l _
  · exact withPast_advance past { s with host := _ } l x.config _
  · exact withPast_advance past s l x.config _
  · exact withPast_advance past s l x.config _
  · exact withPast_advance past s l x.config _
  · exact withPast_advance past { s with host := _ } l x.config _
  · exact withPast_advance past s l x.config _
  · exact withPast_advance past s l x.config _
  · exact withPast_advance past s l x.config _
  · exact withPast_advance past { s with host := _ } l x.config _
  · exact withPast_advance past { s with host := _ } l x.config _
  · exact withPast_advance past { s with host := _ } l x.config _
  · rfl

theorem withPast_resumeFrame (f : Frame) (r : Reply) :
    (s.withPast past).resumeFrame f r = (s.resumeFrame f r).withPast past := by
  have hlisteners : (s.withPast past).listeners = s.listeners := rfl
  unfold resumeFrame
  rw [hlisteners]
  split
  · exact withPast_finish past { s with listeners := _ } _
  · exact withPast_finish past s _
  · split
    · exact withPast_resume past s _ _ _ _
    · rfl
  · exact withPast_finish past s _
  · exact withPast_finish past s _
  · rfl

theorem withPast_step (e : Event) : (s.withPast past).step e = (s.step e).withPast past := by
  cases e with
  | start op => exact withPast_perform past s op
  | world host => rfl
  | reply r =>
    have htasks : (s.withPast past).tasks = s.tasks := rfl
    simp only [step, reply]
    rw [htasks]
    split
    · rfl
    rename_i f rest ht
    split
    · have hnote := withPast_note past { s with tasks := rest } (.replied r)
      rw [← withPast_resumeFrame, ← hnote]
      rfl
    · rfl

theorem withPast_run (es : List Event) : (s.withPast past).run es = (s.run es).withPast past := by
  induction es generalizing s with
  | nil => rfl
  | cons e es ih =>
    have hstep := withPast_step past s e
    exact (congrArg (·.run es) hstep).trans (ih (s.step e))

end Recalled

/-- Whatever happens, `s'` goes on as `s` does: the same comes of it, and the same is noted. -/
def GoesOnAs (s' s : State) : Prop :=
  ∀ es, ∃ new, (s.run es).history = s.history ++ new ∧
    s'.run es = { s.run es with history := s'.history ++ new }

/-- What differs in its history alone goes on alike. -/
theorem goesOnAs_of_history {s s' : State} (h : { s' with history := s.history } = s) :
    s'.GoesOnAs s := by
  intro es
  let bare : State := { s with history := [] }
  have hs : bare.withPast s.history = s := by simp [withPast, bare]
  have hs' : bare.withPast s'.history = s' := by
    obtain ⟨host, listeners, dropped, connections, tasks, history⟩ := s'
    obtain ⟨rfl, rfl, rfl, rfl, rfl, -⟩ := State.mk.inj h
    simp [withPast, bare]
  have hrun := withPast_run s.history bare es
  have hrun' := withPast_run s'.history bare es
  rw [hs] at hrun
  rw [hs'] at hrun'
  refine ⟨(bare.run es).history, ?_, ?_⟩
  · rw [hrun]
    rfl
  · rw [hrun', hrun]
    rfl

end State

end LocalIpc.Unix

import LocalIpc.Proofs.Output.Lines
import LocalIpc.Proofs.Program.Counting
/-!
# Lines of a report

A session that goes well has one line in JSON, whatever its client sent, and the lines are read back
as the events of the report. For a person it has one line as well, unless what is shown of the
payload has line breaks: then the client has put further lines on standard output.
-/

namespace LocalIpc

variable {σ : Type}

namespace Reporting

/-- What is shown of the payload is text with a line break. -/
def Session.ShowsBreak (s : Session) : Prop :=
  0x0A ∈ s.data.take Preview.limit ∧ ∃ text, s.data.take Preview.limit = Text.encode text

/-- The text of an event where each event is to have a line. -/
def eventText (o : Reporting) (e : Event) : String :=
  if o.format = .json then e.toJson else e.toLine

/-- The lines that a report on these sessions has put out. -/
structure PutsLines (o : Reporting) (r : Sessions) (out : Bytes) : Prop where
  /-- Nothing is left behind the last line break. -/
  whole : out = (Text.endedLines out).flatMap (· ++ [0x0A])
  json : o.format = .json →
    Text.endedLines out = (r.events o).map fun e => Text.encode e.toJson
  /-- The line of an event falls apart where it has line breaks. -/
  pretty : o.format = .pretty →
    Text.endedLines out = (r.events o).flatMap fun e => Text.split 0x0A (Text.encode e.toLine)
  /-- No session is without its line. -/
  atLeast : r.clean.length ≤ (Text.endedLines out).length
  onePerSession : (Text.endedLines out).length = r.clean.length ↔
    o.format = .json ∨ ∀ s ∈ r.clean, ¬ s.ShowsBreak

section Lines

variable {o : Reporting} {r : Sessions} {t : Site σ} {line : σ → List Client}

theorem printed_eq_eventText (hformat : o.format = .json ∨ o.format = .pretty) (e : Event) :
    e.printed o.format = o.eventText e ++ "\n" := by
  rcases hformat with h | h <;> simp [h, eventText, Event.printed]

/-- Where events have lines, what is put out are their texts, each with a line break behind it. -/
theorem output_eq_flatMap (hformat : o.format = .json ∨ o.format = .pretty) (r : Sessions) :
    r.output o = ((r.events o).map fun e => Text.encode (o.eventText e)).flatMap (· ++ [0x0A]) := by
  have hcopied : ∀ s, o.copied s = [] := by
    rcases hformat with h | h <;> simp [copied, h]
  have hshown : ∀ k s, o.shown k s = Text.encode (o.eventText (o.eventOf k s)) ++ [0x0A] := by
    intro k s
    rw [shown, hcopied, printed_eq_eventText hformat, Text.encode_append]
    rfl
  have hfailed : r.failed.elim [] o.copied = [] := by
    cases r.failed <;> simp [hcopied]
  unfold Sessions.output Sessions.events
  rw [hfailed, List.append_nil, List.flatMap_map, List.flatMap_def]
  simp only [hshown]
  congr 1
  exact List.ext_getElem (by simp) fun k _ _ => by simp

/-- The line of a session's event holds together just when what is shown of its payload does. -/
theorem breaks_eventText_iff (htransport : ¬ Event.Breaks o.transport) (hjson : o.format ≠ .json)
    (k : Nat) (s : Session) : 0x0A ∈ Text.encode (o.eventText (o.eventOf k s)) ↔ s.ShowsBreak := by
  rw [eventText, if_neg hjson, Text.mem_encode_iff (by decide)]
  exact (Event.breaks_toLine_iff htransport).trans (Event.breaks_preview_iff s.data)

theorem putsLines (hformat : o.format = .json ∨ o.format = .pretty)
    (htransport : ¬ Event.Breaks o.transport) (r : Sessions) :
    o.PutsLines r (r.output o) := by
  let texts := (r.events o).map fun e => Text.encode (o.eventText e)
  have hlength : texts.length = r.clean.length := by simp [texts, Sessions.events]
  have hunbroken : o.format = .json → ∀ text ∈ texts, 0x0A ∉ text := by
    intro h
    rw [List.forall_mem_map]
    intro e _
    rw [eventText, if_pos h, Text.mem_encode_iff (by decide)]
    exact e.not_breaks_toJson
  obtain ⟨hatLeast, hone⟩ := Text.length_endedLines_flatMap texts
  rw [output_eq_flatMap hformat]
  refine ⟨(Text.flatMap_endedLines _).symm, fun h => ?_, fun h => ?_, hlength ▸ hatLeast, ?_⟩
  · rw [Text.endedLines_of_unbroken (hunbroken h)]
    simp [texts, eventText, h]
  · rw [Text.endedLines_flatMap, List.flatMap_map]
    simp [eventText, h]
  · rw [← hlength, hone]
    by_cases hjson : o.format = .json
    · exact iff_of_true (hunbroken hjson) (.inl hjson)
    · rw [or_iff_right hjson, List.forall_mem_map]
      unfold Sessions.events
      simp only [List.forall_mem_iff_getElem, List.length_mapIdx, List.getElem_mapIdx,
        breaks_eventText_iff htransport hjson]

end Lines

/-! ## Reading a report -/

/-- What somebody who takes a line for JSON makes of it. -/
def lineValue? (line : Bytes) : Option Json.Value := (Text.decode? line).bind Json.read?

/-- What was put out are the events, one after another. -/
def PutsEvents (o : Reporting) (w : Work σ) : Prop :=
  w.output = w.events.flatMap fun e => Text.encode (e.printed o.format)

section Read

variable {o : Reporting} {t : Site σ} {w : Work σ}

theorem PutsEvents.handle (h : o.PutsEvents w) (hraw : o.format ≠ .raw) (c : Client) :
    o.PutsEvents (handle t o c w) := by
  obtain ⟨s, rfl, hs⟩ := exists_session c (t.release c.handle (t.interrupts c.interrupts w.world)).1
  have hv : t.release s.client.handle (t.interrupts s.client.interrupts w.world) =
      (s.released, _) := Prod.ext hs.symm rfl
  unfold PutsEvents at h ⊢
  cases hfailure : s.failure? with
  | none =>
    rw [handle_of_clean hfailure hv]
    simp [h, shown, copied, hraw]
  | some e =>
    rw [handle_of_failed hfailure hv]
    simp [h, copied, hraw]

theorem PutsEvents.run (h : o.PutsEvents w) (hraw : o.format ≠ .raw) (t : Site σ) (turns : Nat) :
    o.PutsEvents (o.run t turns w).2 := by
  have hloop : o.PutsEvents (Loop.serve (Work.service t) (Reporting.handle t o) turns w).2 :=
    Loop.serveFrom_invariant (I := o.PutsEvents) (fun _ hw => hw) (fun c _ hw => hw.handle hraw c)
      turns 0 h
  rcases hserve : Loop.serve (Work.service t) (Reporting.handle t o) turns w with ⟨_ | n | e, u⟩
  all_goals rw [hserve] at hloop
  · rw [run_of_none hserve]
    exact hloop
  · rw [run_of_stopped hserve]
    exact hloop
  · rw [run_of_failed hserve]
    exact hloop

/-- Whoever reads what a report has put out in JSON, line by line, has just its events, at any site
and whatever came of the sessions. -/
theorem lines_read_back (hjson : o.format = .json) (t : Site σ) (world : σ) (turns : Nat) :
    let w := (o.run t turns (.start world)).2
    w.output = (Text.endedLines w.output).flatMap (· ++ [0x0A]) ∧
      (Text.endedLines w.output).map lineValue? = w.events.map fun e => some e.value := by
  intro w
  have hputs : o.PutsEvents w :=
    PutsEvents.run (w := .start world) rfl (by simp [hjson]) t turns
  have houtput : w.output = (w.events.map fun e => Text.encode e.toJson).flatMap (· ++ [0x0A]) := by
    rw [hputs, List.flatMap_map]
    simp only [hjson, Event.printed, Text.encode_append]
    rfl
  have hunbroken : ∀ text ∈ w.events.map fun e => Text.encode e.toJson, 0x0A ∉ text := by
    rw [List.forall_mem_map]
    intro e _
    rw [Text.mem_encode_iff (by decide)]
    exact e.not_breaks_toJson
  rw [houtput, Text.endedLines_of_unbroken hunbroken]
  refine ⟨rfl, ?_⟩
  rw [List.map_map]
  refine List.map_congr_left fun e _ => ?_
  have htext : Text.decode? (Text.encode e.toJson) = some e.toJson :=
    Text.decode?_eq_some_iff.mpr rfl
  simp [lineValue?, htext, e.read?_toJson]

end Read

end Reporting

namespace Program

/-- Whatever the clients send, `listen` puts out the lines of the sessions that went well and no
others: in JSON one for each session; for a person at least one, and just one for each session
unless what is shown of some payload is text with a line break. -/
theorem listen_puts_lines (t : Site σ) (line : σ → List Client) (ht : t.Offers line)
    (hclose : ∀ v, CommandFailure.ofClose? (t.close v).1 = none) (info : BuildInfo) (s : Start)
    (i : Invocation) (path : Path) (count : Option UInt64)
    (hparse : CommandLine.parse s.environment s.words = .ok i)
    (hcommand : i.command = .listen path count)
    (hformat : (reportingOf s i path count).format = .json ∨
      (reportingOf s i path count).format = .pretty) (v u : σ)
    (hbind : t.bind path v = (.ok (), u)) (turns : Nat) (hturns : (line u).length < turns) :
    ∃ r e w, run t turns info s v = .ok (some e, w) ∧
      r.served.map Reporting.Session.client <+: line u ∧
      (r.served.map Reporting.Session.client = line u ∨ t.running w = false) ∧
      (reportingOf s i path count).PutsLines r e.output := by
  have hwatched : t.watch.bind path (v, []) = (.ok (), (u, [])) := by simp [Site.watch, hbind]
  have hfresh : Reporting.IsFresh ((bound path).foldl Work.note (.start (u, []))) :=
    ⟨rfl, rfl, rfl, rfl, rfl⟩
  obtain ⟨r, result, w', hrun, hconcludes⟩ :=
    Reporting.exists_concludes (o := reportingOf s i path count) ht hclose hfresh hturns
  have hsame := Reporting.unwatched_run t (reportingOf s i path count) turns
    ((bound path).foldl Work.note (.start (u, [])))
  rw [hrun] at hsame
  have hplain : (reportingOf s i path count).run t turns
      ((bound path).foldl Work.note (.start u)) = (some result, w'.unwatched) := hsame.symm
  refine ⟨r, ended i result w'.unwatched, w'.unwatched.world, ?_, hconcludes.inOrder,
    hconcludes.complete, ?_⟩
  · rw [run_listen hparse hcommand hbind, hplain]
    rfl
  · have houtput : (ended i result w'.unwatched).output = r.output _ := hconcludes.output
    rw [houtput]
    exact Reporting.putsLines hformat (by simp [Event.Breaks, reportingOf, Unix.transport]) r

/-- Of two clients the first sends what looks like an event, and stdout has three lines. -/
theorem listen_puts_three_lines :
    let clients : List Client := [⟨⟨1⟩, [.ok [0x61, 0x0A], .ok [0x23, 0x37]], [], 0, 0, 0⟩,
      ⟨⟨2⟩, [.ok [0x62]], [], 0, 0, 0⟩]
    let s : Start := ⟨["--format", "pretty", "listen", "s"].map Text.encode, none, false⟩
    ∃ r e w, run Queue.site 3 .plain s ⟨true, false, clients⟩ = .ok (some e, w) ∧
      r.served.map Reporting.Session.client <+: clients ∧
      Reporting.PutsLines ⟨[0x73], Unix.transport, .pretty, none⟩ r e.output ∧
      (Text.endedLines e.output).length = 3 := by
  intro clients s
  have hparse : CommandLine.parse s.environment s.words =
      .ok ⟨some .pretty, .text, .info, .listen [0x73] none⟩ := by decide +kernel
  obtain ⟨r, e, w, hrun, hserved, -, hlines⟩ := listen_puts_lines Queue.site Queue.clients
    Queue.offers Queue.closes .plain s _ [0x73] none hparse rfl (.inr rfl) ⟨true, false, clients⟩
    ⟨true, false, clients⟩ rfl 3 (by decide)
  have hlength : (run Queue.site 3 .plain s ⟨true, false, clients⟩).toOption.bind (fun ended =>
      ended.1.map fun e => (Text.endedLines e.output).length) = some 3 := by decide +kernel
  rw [hrun] at hlength
  exact ⟨r, e, w, hrun, hserved, hlines, Option.some.inj hlength⟩

/-- One client comes, and what it sends begins a line of its own that reads as the event of
another. -/
theorem client_forges_line :
    let forged := "#2 transport=unix-domain-socket handle=9 bytes=1"
    let visits : Visits := .start .fresh [0x73] [⟨.plain, Text.encode ("x\n" ++ forged), []⟩] none
    let ended := carryOut Visits.site visits.turns .plain .pretty (.start visits)
      (.listen [0x73] (some 1))
    ended.1 = some (.ok ()) ∧ ended.2.events.length = 1 ∧
      (Text.endedLines ended.2.output).drop 1 = [Text.encode forged] := by
  decide +kernel

end Program

end LocalIpc

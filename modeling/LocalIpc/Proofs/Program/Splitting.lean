import LocalIpc.Proofs.Program.Reporting
/-!
# How the bytes of a client were split

What comes of a client depends on the bytes that it sent and on how its reads ended. Where the reads
split the bytes, and where they were interrupted, makes no difference: not to what is kept, not to
what standard output gets, and not to the event.
-/

namespace LocalIpc.Reporting

variable {σ : Type} {t : Site σ} {o : Reporting} {c : Client} {w : Work σ} {data : Bytes}
  {broken : Option IoError}

/-- What the release of a client's connection gives, after the interrupts that came. -/
def releaseOf (t : Site σ) (c : Client) (w : Work σ) : Except IoError Unit × σ :=
  t.release c.handle (t.interrupts c.interrupts w.world)

/-- A client that was served, seen as a session. -/
def sessionOf (t : Site σ) (w : Work σ) (h : Delivers c.reads data broken) : Session :=
  ⟨c, data, broken, h, (releaseOf t c w).1⟩

/-- What the session of a client that sent `data` leaves behind, with its events. -/
structure Heard (t : Site σ) (o : Reporting) (c : Client) (w : Work σ) (data : Bytes)
    (broken : Option IoError) (es : List Event) : Prop where
  /-- Other reads with the same bytes and the same end leave the same behind. -/
  splitting : ∀ reads, Delivers reads data broken →
    receive reads = receive c.reads ∧ handle t o { c with reads } w = handle t o c w
  count : (receive c.reads).received.count = data.length
  preview : (receive c.reads).received.preview =
    Preview.ofPayload (data.take Received.headLimit)
  ending : (receive c.reads).failure = broken
  events : (handle t o c w).events = w.events ++ es
  /-- In raw format the bytes are written, and the event adds nothing to them. -/
  raw : o.format = .raw → (handle t o c w).output = w.output ++ data
  /-- In the other formats the event is all that is written. -/
  shown : o.format ≠ .raw → (handle t o c w).output =
    w.output ++ es.flatMap fun e => Text.encode (e.printed o.format)
  /-- A client that was heard out has its event, unless its connection cannot be closed. -/
  heardOut : broken = none → (closeFailure? (releaseOf t c w).1 = none → es.length = 1) ∧
    ∀ e ∈ es, e.bytesReceived = data.length ∧
      e.preview = Preview.ofPayload (data.take Received.headLimit)
  /-- A read that failed is what went wrong, and there is no event. -/
  brokenOff : ∀ e, broken = some e →
    es = [] ∧ (handle t o c w).failure = some (.ofReceive e)

/-- Reads are all the same to a session when they deliver the same. -/
theorem handle_resplit {reads : List (Except IoError Bytes)} (h : Delivers c.reads data broken)
    (h' : Delivers reads data broken) (t : Site σ) (o : Reporting) (w : Work σ) :
    receive reads = receive c.reads ∧ handle t o { c with reads } w = handle t o c w := by
  have hsame : receive reads = receive c.reads := by
    rw [receive_of_delivers h, receive_of_delivers h']
  refine ⟨hsame, ?_⟩
  unfold handle
  simp only [hsame]
  rfl

theorem heard_of_clean (h : Delivers c.reads data broken)
    (hs : (sessionOf t w h).failure? = none) :
    Heard t o c w data broken [o.eventOf (w.sessions + 1) (sessionOf t w h)] := by
  have hhandle : handle t o c w = _ :=
    handle_of_clean hs (Prod.ext rfl rfl : releaseOf t c w = (_, (releaseOf t c w).2))
  have hreceive := receive_of_delivers h
  have hbroken : broken = none := by
    cases broken with
    | none => rfl
    | some e => simp [Session.failure?, sessionOf] at hs
  refine ⟨fun reads h' => handle_resplit h h' t o w, by rw [hreceive]; rfl, by rw [hreceive]; rfl,
    by rw [hreceive], by rw [hhandle], fun hraw => ?_, fun hraw => ?_, fun _ => ⟨fun _ => rfl, ?_⟩,
    ?_⟩
  · rw [hhandle]
    simp [Reporting.shown, copied, hraw, Event.printed, Text.encode, sessionOf]
  · rw [hhandle]
    simp [Reporting.shown, copied, hraw]
  · intro e he
    rw [List.mem_singleton.mp he]
    exact ⟨rfl, rfl⟩
  · intro e he
    rw [hbroken] at he
    contradiction

theorem heard_of_failed (h : Delivers c.reads data broken) {e : IoError}
    (hs : (sessionOf t w h).failure? = some e) : Heard t o c w data broken [] := by
  have hhandle : handle t o c w = _ :=
    handle_of_failed hs (Prod.ext rfl rfl : releaseOf t c w = (_, (releaseOf t c w).2))
  have hreceive := receive_of_delivers h
  refine ⟨fun reads h' => handle_resplit h h' t o w, by rw [hreceive]; rfl, by rw [hreceive]; rfl,
    by rw [hreceive], by rw [hhandle, List.append_nil], fun hraw => ?_, fun hraw => ?_, ?_, ?_⟩
  · rw [hhandle]
    simp [copied, hraw, sessionOf]
  · rw [hhandle]
    simp [copied, hraw]
  · rintro rfl
    refine ⟨fun hreleased => ?_, by simp⟩
    simp [Session.failure?, sessionOf, hreleased] at hs
  · rintro e' rfl
    obtain rfl : e' = e := by simpa [Session.failure?, sessionOf] using hs
    exact ⟨rfl, by rw [hhandle]⟩

/-- Clients that sent the same bytes are reported alike, however their reads split the bytes and
wherever they were interrupted. All bytes are counted; in raw format they are written as they are,
also those that came before a read that failed. -/
theorem splitting_changes_nothing (t : Site σ) (o : Reporting) (c : Client) (w : Work σ)
    (data : Bytes) (broken : Option IoError) (h : Delivers c.reads data broken) :
    ∃ es, Heard t o c w data broken es := by
  cases hs : (sessionOf t w h).failure? with
  | none => exact ⟨_, heard_of_clean h hs⟩
  | some e => exact ⟨_, heard_of_failed h hs⟩

/-- Sixty-five bytes in one piece and in two, the second of which comes after an interrupted
read. -/
theorem last_byte_comes_late :
    let data : Bytes := List.replicate 65 0x78
    let c : Client := ⟨⟨1⟩, [.ok data], [], 0, 0, 0⟩
    let reads : List (Except IoError Bytes) :=
      [.ok (data.take 64), .error .interrupted, .ok (data.drop 64), .ok []]
    let o : Reporting := ⟨[0x73], Unix.transport, .raw, none⟩
    let w : Work Queue := .start ⟨true, false, []⟩
    Delivers c.reads data none ∧ Delivers reads data none ∧
      handle Queue.site o { c with reads } w = handle Queue.site o c w ∧
      (handle Queue.site o c w).output = data ∧
      (receive reads).received.preview = String.ofList (List.replicate 64 'x') ++ "..." := by
  intro data c reads o w
  have hone : Delivers c.reads data none := .piece (by decide) .hungUp
  have htwo : Delivers reads data none :=
    .piece (by decide) (.again (by decide) (.piece (by decide) (.ended [])))
  obtain ⟨es, heard⟩ := splitting_changes_nothing Queue.site o c w data none hone
  obtain ⟨hreceive, hhandle⟩ := heard.splitting reads htwo
  refine ⟨hone, htwo, hhandle, heard.raw rfl, ?_⟩
  rw [hreceive, heard.preview]
  decide

end LocalIpc.Reporting

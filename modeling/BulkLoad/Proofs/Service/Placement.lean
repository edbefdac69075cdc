import BulkLoad.Proofs.Service.Depot
import BulkLoad.Proofs.Service.Swap
import Mathlib.Data.List.TakeWhile

/-!
# When a scratch table is put in place

An import in replace mode that comes to its end has put the scratch table in the place of the
destination just when that was due at its beginning (`placed_iff_due`). What the session is found to
be when it is opened decides on the upload only (`opening_of_run`). So a scratch table that was
made is put in place whatever the session is found to be : if it is committed, say, and takes no
parts any more, then none is sent, and the table is put in place without them (`placed_of_made`).
-/

namespace BulkLoad.Import

open Program (Trace Keeps)

variable {client : Api.Client} {s : Settings} {schema : Schema}
  {rows : List (Except RowFault Row)} {name database table : String} {request : Api.Request}
  {sent : List (Api.Request × Api.Reply)} {log : List Happening} {report : Report}

/-! ## What a session is found to be -/

/-- The record from the first reply on that tells a verdict on a request. -/
def since (request : Api.Request) (sent : List (Api.Request × Api.Reply)) :
    List (Api.Request × Api.Reply) :=
  sent.dropWhile fun sending => ¬ (sending.1 = request ∧ verdict request sending.2 ≠ .lost)

/-- What a session is shown to be at first after it was created, or was there already. -/
def found (name database table : String) (sent : List (Api.Request × Api.Reply)) :
    Option Api.Session :=
  (firstTold (lookAt name) (since (creating name database table) sent)).bind (seen name)

theorem since_eq_nil_iff : since request sent = [] ↔ firstTold request sent = none := by
  simp [since, firstTold, List.dropWhile_eq_nil_iff, List.find?_eq_none, imp_iff_not_or]

theorem since_append (h : firstTold request sent ≠ none)
    (later : List (Api.Request × Api.Reply)) :
    since request (sent ++ later) = since request sent ++ later := by
  have hne : (since request sent).isEmpty = false := by
    simpa using mt since_eq_nil_iff.1 h
  simp only [since] at hne ⊢
  rw [List.dropWhile_append, hne]
  rfl

theorem since_of_untold (h : firstTold request sent = none)
    (later : List (Api.Request × Api.Reply)) :
    since request (sent ++ later) = since request later := by
  have hnil := since_eq_nil_iff.2 h
  unfold since at hnil ⊢
  rw [List.dropWhile_append, hnil]
  rfl

theorem found_append {shown : Api.Session} (h : found name database table sent = some shown)
    (later : List (Api.Request × Api.Reply)) :
    found name database table (sent ++ later) = some shown := by
  obtain ⟨reply, hf, hs⟩ := Option.bind_eq_some_iff.1 h
  have htold : firstTold (creating name database table) sent ≠ none := by
    intro hn
    rw [since_eq_nil_iff.2 hn] at hf
    cases hf
  rw [found, since_append htold, firstTold_append_of_some hf]
  exact hs

example : (found "s" "d" "t_s"
    [(lookAt "s", .answered 200 (SessionDriver.told "t_s" "committing").body),
      (creating "s" "d" "t_s", .answered 409 []),
      (lookAt "s", .answered 200 (SessionDriver.told "t_s" "committed").body)]).map (·.status) =
        some .committed := by decide +kernel

/-- A session was created, or was there already, and has not been shown since. -/
def Unseen (name database table : String) (sent : List (Api.Request × Api.Reply)) : Prop :=
  firstTold (creating name database table) sent ≠ none ∧
    firstTold (lookAt name) (since (creating name database table) sent) = none

/-- A session as it is when it takes parts. -/
def Taking (shown : Api.Session) : Prop :=
  shown.status = .uploading ∧ shown.frozen = false

/-- What is recorded once it is known whether the session takes parts. -/
def Opening (name database table : String) (takes : Bool) (sent : List (Api.Request × Api.Reply)) :
    Prop :=
  ∃ shown, found name database table sent = some shown ∧ (takes = true ↔ Taking shown)

/-- Nothing is asked of what is recorded. -/
theorem steady_recording (J : List (Api.Request × Api.Reply) → Prop) :
    Steady recording ({} : Aim (List (Api.Request × Api.Reply)) Error) J :=
  ⟨fun _ _ m => m.elim, fun _ _ => trivial⟩

/-- A stage that does not make a request leaves it as untold as it was. -/
theorem brings_untold (request : Api.Request) {α : Type} {p : Work Error α} {K : α → Prop}
    (h : p.Keeps (Makes (· ≠ request)) K) :
    Brings recording {} (firstTold request · = none) p
      fun _ sent => firstTold request sent = none := by
  refine (Brings.of_keeps h (fun _ hq => hq.2 _ rfl) (steady_recording _) (fun _ _ => trivial) ?_
    (fun _ => trivial) trivial).mono (fun _ => id) fun _ _ hs => hs.2
  rintro made hne sent reply sent' hs rfl
  rw [firstTold_snoc hs, if_neg fun h => hne h.1]

/-- The request that creates a session tells nothing of what the session is. -/
theorem unseen_snoc (h : firstTold (lookAt name) (since (creating name database table) sent) = none)
    (reply : Api.Reply) : firstTold (lookAt name) (since (creating name database table)
      (sent ++ [(creating name database table, reply)])) = none := by
  have hne : creating name database table ≠ lookAt name := by simp [creating, lookAt]
  by_cases hs : firstTold (creating name database table) sent = none
  · rw [since_of_untold hs]
    refine Option.map_eq_none_iff.2 (List.find?_eq_none.2 fun sending hm => ?_)
    obtain rfl := List.mem_singleton.1 ((List.dropWhile_sublist _).subset hm)
    simp [hne]
  · rw [since_append hs, firstTold_snoc h, if_neg fun h => hne h.1]

/-- A session is created before it is looked at. -/
theorem brings_creating :
    Brings recording {} (firstTold (creating name database table) · = none)
      (callingOrConflict (client.createSession name database table)) fun _ =>
        Unseen name database table := by
  change Brings _ _ _ (callingOrConflict (client.perform (creating name database table))) _
  rw [callingOrConflict_perform]
  refine (brings_told (creating name database table) (fun sent =>
    firstTold (lookAt name) (since (creating name database table) sent) = none) id trivial
    (fun _ => trivial) ?_ (fun _ _ => trivial) (fun _ reply h => unseen_snoc h reply)
    fun _ _ _ => rfl).mono ?_ ?_
  · intro e hc _
    simp [Except.map, Api.ignoreConflict, hc]
  · intro sent hs
    have hnil : since (creating name database table) sent = [] := since_eq_nil_iff.2 hs
    exact ⟨by rw [hnil]; rfl, hs⟩
  · rintro _ sent ⟨hu, reply, hf, -⟩
    exact ⟨Option.ne_none_iff_exists'.2 ⟨reply, hf⟩, hu⟩

/-- What the first look shows after that. -/
theorem brings_look_since {d : SessionDriver} :
    Brings recording {} (Unseen name database table) (d.look name)
      fun shown sent => found name database table sent = some shown := by
  change Brings _ _ _ (calling (d.client.fetch (.sessionShow name) Api.Session.decoder)) _
  rw [calling_fetch]
  refine (brings_told (lookAt name) (firstTold (creating name database table) · ≠ none)
    (since (creating name database table)) trivial (fun _ => trivial) (fun _ _ _ => rfl)
    (fun _ _ => trivial) ?_ fun _ _ h => since_append h _).mono (fun _ => id) ?_
  · intro sent reply h
    obtain ⟨told, ht⟩ := Option.ne_none_iff_exists'.1 h
    simp [firstTold_append_of_some ht]
  · rintro shown sent ⟨-, reply, hf, hd⟩
    rw [found, hf]
    exact decoded_iff_seen.1 hd

/-- A session that is opened is shown, and what it is shown to be tells whether it takes parts. -/
theorem brings_start {d : SessionDriver} :
    Brings recording {} (firstTold (creating name database table) · = none)
      (d.start name database table) (Opening name database table) := by
  refine brings_creating.bind fun _ => brings_look_since.bind fun shown => ?_
  refine Brings.require (steady_recording _) (fun _ => ?_) fun _ _ _ => trivial
  split
  next hs =>
    exact Brings.pure (steady_recording _) fun sent hf => ⟨shown, hf, by simp [Taking, hs]⟩
  next => exact Brings.throw (steady_recording _) fun _ _ => trivial
  next hs _ =>
    exact Brings.pure (steady_recording _) fun sent hf =>
      ⟨shown, hf, by simpa [Taking] using fun h => absurd h hs⟩

/-- Rows are uploaded if the session takes parts. -/
theorem brings_uploadInto_opening {d : SessionDriver} {loadTable : String}
    {writers : Record.WriterSet} (report : Report) (hr : report.uploaded = false) :
    Brings recording {} (firstTold (creating report.session s.database loadTable) · = none)
      (uploadInto s d loadTable writers rows report)
      fun after sent => after.session = report.session ∧
        Opening report.session s.database loadTable after.uploaded sent := by
  refine brings_start.bind fun takes => ?_
  cases takes with
  | false => exact Brings.pure (steady_recording _) fun sent ho => ⟨rfl, hr ▸ ho⟩
  | true =>
    exact (brings_uploadRows (steady_recording _) (fun _ => trivial) trivial).bind fun _ =>
      Brings.pure (steady_recording _) fun sent ho => ⟨rfl, ho⟩

/-- What is recorded once rows are loaded : the session is not created before it is opened. -/
theorem brings_load_opening : Brings recording {} (· = []) (load client s schema rows)
    fun r => Opening r.2.session s.database (s.loadTable r.2.session) r.2.uploaded := by
  have hchoose : Brings recording {} (· = []) (chooseSession s) fun _ sent => sent = [] :=
    (Brings.of_keeps (S := fun _ => False) makes_chooseSession (fun _ hq => hq.2 _ rfl)
      (steady_recording _) (fun _ hf => hf.elim) (fun _ hf => hf.elim) (fun _ => trivial)
      trivial).mono (fun _ => id) fun _ _ hs => hs.2
  refine Brings.bind (Q := fun _ => (· = [])) ?_ fun writers => hchoose.bind fun name => ?_
  · exact Brings.ofExcept (steady_recording _) (fun _ _ _ => id) fun _ _ _ _ => trivial
  have hswap : Brings recording {} _ (swapWanted client s name (s.loadTable name)) _ :=
    brings_untold (creating name s.database (s.loadTable name))
      (makes_swapWanted (by simp [creating, lookAt]) (by simp [creating]))
  have hprepare (swap : Bool) :
      Brings recording {} _ (prepare client s (s.loadTable name) swap) _ :=
    brings_untold (creating name s.database (s.loadTable name))
      (makes_prepare (by simp [creating]) (by simp [creating]) (by simp [creating]))
  let report : Report := { session := name, database := s.database, table := s.table }
  refine Brings.mono (hswap.bind fun swap => (hprepare swap).bind fun _ =>
    (brings_uploadInto_opening report rfl).bind fun after => Brings.assume (fun _ hs => hs.1)
      fun hsession => Brings.pure (steady_recording _) fun sent hs => ?_) ?_ fun _ _ => id
  · simpa only [hsession] using hs.2
  · rintro sent rfl
    rfl

/-! ## From the load to the end -/

/-- The trace of an import that is done. -/
theorem of_run_done {events : List Event}
    (h : Trace (run client s schema rows) events (some (.done report))) :
    ∃ loading concluding swap loaded concluded started ended,
      events = ⟨.clock, started⟩ :: (loading ++ (concluding ++ [⟨.clock, ended⟩])) ∧
      Trace (load client s schema rows) loading (some (.done (swap, loaded))) ∧
      Trace (conclude client s swap loaded) concluding (some (.done concluded)) ∧
      report.session = concluded.session ∧ report.uploaded = concluded.uploaded := by
  obtain ⟨started, rest, rfl, h₁⟩ := Trace.of_query_bind_done h
  obtain ⟨loading, ⟨swap, loaded⟩, rest, rfl, h₂, h₃⟩ := Trace.of_bind_done h₁
  obtain ⟨concluding, concluded, rest, rfl, h₄, h₅⟩ := Trace.of_bind_done h₃
  obtain ⟨ended, rest, rfl, h₆⟩ := Trace.of_query_bind_done h₅
  obtain ⟨rfl, rfl⟩ := Trace.of_pure_done h₆
  exact ⟨loading, concluding, swap, loaded, concluded, started, ended, rfl, h₂, h₄, rfl, rfl⟩

/-- A swap that succeeds was asked for. -/
theorem asked_of_putInPlace {events : List Event} {loadTable : String}
    (h : Trace (putInPlace client s loadTable true) events (some (.done ()))) :
    ∃ reply, (⟨.api (.send (swapping s.database loadTable s.table)), reply⟩ : Event) ∈ events := by
  obtain ⟨call, result, rfl, hc, hr⟩ := of_calling h
  obtain rfl : result = some (.done ()) := by
    rcases result with - | (u | e | reason)
    · cases hr
    · rfl
    · cases hr
    · cases hr
  obtain ⟨inner, hx, ⟨body, rfl, -⟩ | hs⟩ := Api.Client.exchange_of_perform hc
  · obtain ⟨before, reply, rfl, -⟩ := hx.of_done
    exact ⟨reply, by simp [ofCall, swapping]⟩
  · exact absurd rfl (hs.ne_done ())

/-- A conclusion is about the session that was loaded, and asks for a swap if one is wanted. -/
theorem of_conclude_done {events : List Event} {swap : Bool} {loaded : Report}
    (h : Trace (conclude client s swap loaded) events (some (.done report))) :
    report.session = loaded.session ∧ report.uploaded = loaded.uploaded ∧
      (swap = true → ∃ reply, (⟨.api (.send (swapping s.database (s.loadTable loaded.session)
        s.table)), reply⟩ : Event) ∈ events) := by
  obtain ⟨driving, committed, rest, rfl, h₁, h₂⟩ := Trace.of_bind_done h
  obtain ⟨putting, ⟨⟩, rest, rfl, h₃, h₄⟩ := Trace.of_bind_done h₂
  obtain ⟨cleaning, ⟨⟩, rest, rfl, -, h₅⟩ := Trace.of_bind_done h₄
  obtain ⟨rfl, rfl⟩ := Trace.of_pure_done h₅
  obtain ⟨hsession, huploaded⟩ : report.session = loaded.session ∧
      report.uploaded = loaded.uploaded := by
    obtain ⟨driving, shown, noting, rfl, -, hnoted⟩ := Trace.of_bind_done h₁
    obtain ⟨rfl, rfl⟩ := Trace.of_pure_done hnoted
    exact ⟨rfl, rfl⟩
  refine ⟨hsession, huploaded, ?_⟩
  rintro rfl
  obtain ⟨reply, hm⟩ := asked_of_putInPlace h₃
  rw [hsession] at hm
  exact ⟨reply, List.mem_append_right _ (List.mem_append_left _ hm)⟩

/-- What is settled at the beginning of an import that is done, and whether a swap was asked for. -/
theorem settled_of_run {events : List Event}
    (h : Trace (run client s schema rows) events (some (.done report))) (hm : s.mode = .replace) :
    ∃ swap, Settled s report.session swap (sendings events) ∧
      (swap = true → ∃ reply, (⟨.api (.send (swapping s.database (s.loadTable report.session)
        s.table)), reply⟩ : Event) ∈ events) := by
  obtain ⟨loading, concluding, swap, loaded, concluded, started, ended, rfl, h₁, h₂, hs, -⟩ :=
    of_run_done h
  obtain ⟨hsession, -, hasked⟩ := of_conclude_done h₂
  have hroute : Route recording (warranting s) client s schema rows _ := route_settled hm
  have hloaded : Settled s loaded.session swap (sendings loading) :=
    (hroute.brings_load.meets rfl h₁ (recording_serves _ [])).result _ rfl
  have hconcluded : Settled s concluded.session swap (sendings loading ++ sendings concluding) :=
    (hroute.brings_conclude.meets hloaded h₂ (recording_serves _ _)).result _ rfl
  refine ⟨swap, ?_, fun hswap => ?_⟩
  · rw [hs, sendings_aside (by simp), sendings_append, sendings_append, sendings_aside (by simp),
      sendings_nil, List.append_nil]
    exact hconcluded
  · obtain ⟨reply, hr⟩ := hasked hswap
    rw [hs, hsession]
    exact ⟨reply, by simp [hr]⟩

/-- What the session of an import that is done is found to be tells whether rows were uploaded. -/
theorem opening_of_run {events : List Event}
    (h : Trace (run client s schema rows) events (some (.done report))) :
    Opening report.session s.database (s.loadTable report.session) report.uploaded
      (sendings events) := by
  obtain ⟨loading, concluding, swap, loaded, concluded, started, ended, rfl, h₁, h₂, hs, hu⟩ :=
    of_run_done h
  obtain ⟨hsession, huploaded, -⟩ := of_conclude_done h₂
  obtain ⟨shown, hfound, ht⟩ : Opening loaded.session s.database (s.loadTable loaded.session)
      loaded.uploaded (sendings loading) :=
    (brings_load_opening.meets rfl h₁ (recording_serves _ [])).result _ rfl
  rw [hs, hu, hsession, huploaded]
  refine ⟨shown, ?_, ht⟩
  rw [sendings_aside (by simp), sendings_append]
  exact found_append hfound _

/-- A load that did not upload started no uploads. -/
theorem launches_of_load {events : List Event} {swap : Bool} {loaded : Report}
    (h : Trace (load client s schema rows) events (some (.done (swap, loaded))))
    (hu : loaded.uploaded = false) : launches events = [] := by
  rcases of_load h with ⟨-, hn⟩ | ⟨preparing, staging, _, _, _, rfl, hq, -, -, _, h₁, hr⟩
  · exact absurd rfl (hn _)
  obtain ⟨after, rfl, ho⟩ | hstop := hr
  · obtain ⟨-, rfl⟩ : swap = _ ∧ loaded = after := by simpa using ho
    rcases of_uploadInto h₁ with
      ⟨hp, -⟩ | ⟨opening, feeding, -, -, -, _, -, ⟨feed, summary, -, hreport⟩ | hstop⟩
    · exact launches_of_aside fun e he => (List.forall_mem_append.2 ⟨hq, hp⟩ e he).1
    · obtain rfl : loaded = _ := by simpa using hreport
      cases hu
    · exact absurd rfl (hstop.ne_done _)
  · exact absurd rfl (hstop.ne_done _)

/-- An import that did not upload started no uploads. -/
theorem launches_of_run {events : List Event}
    (h : Trace (run client s schema rows) events (some (.done report)))
    (hu : report.uploaded = false) : launches events = [] := by
  obtain ⟨loading, concluding, swap, loaded, concluded, started, ended, rfl, h₁, h₂, -, hu'⟩ :=
    of_run_done h
  obtain ⟨-, huploaded, -⟩ := of_conclude_done h₂
  have hloading : launches loading = [] :=
    launches_of_load h₁ (by rw [← huploaded, ← hu', hu])
  have hconcluding : launches concluding = [] := by
    obtain ⟨_, _, _, -, -, hload⟩ := loading_of_load h₁
    obtain ⟨-, hmode, -⟩ := hload swap loaded rfl
    obtain ⟨driving, call, last, rfl, hc⟩ := of_conclude h₂ hmode
    exact hc.launches_eq
  have hclock (n : Nat) (rest : List Event) :
      launches (⟨.clock, n⟩ :: rest) = launches rest := rfl
  rw [hclock, launches_append, launches_append, hloading, hconcluding, hclock, launches_nil]
  rfl

/-! ## When the scratch table is put in place -/

theorem exists_sent_of_mem {reply : Api.Reply}
    (h : (⟨.api (.send request), reply⟩ : Event) ∈ own log) :
    ∃ before, Sent before request log := by
  obtain ⟨before, after, rfl⟩ := List.append_of_mem (mem_own.1 h)
  exact ⟨before, _, after, rfl, rfl⟩

/-- An import in replace mode that is done has put the scratch table in the place of the destination
just when that was due at first. -/
theorem placed_iff_due (h : Run client (run client s schema rows) log (some (.done report)))
    (hm : s.mode = .replace) :
    (∃ before, Sent before
      (swapping s.database (s.loadTable report.session) s.table) log) ↔
        Due s report.session (sendings (own log)) := by
  obtain ⟨⟨files, scene, hp⟩, ht⟩ := h
  obtain ⟨swap, hsettled, hasked⟩ := settled_of_run ht hm
  cases swap with
  | true =>
    obtain ⟨reply, hr⟩ := hasked rfl
    exact iff_of_true (exists_sent_of_mem hr) hsettled.2
  | false =>
    refine iff_of_false ?_ hsettled.2.not_due
    rintro ⟨before, hs⟩
    rcases hs.cases hp with ⟨_, _, _, hupload, -⟩ | ⟨reply, after, hown⟩
    · simp [swapping, Upload.sending] at hupload
    · have hm : (swapping s.database (s.loadTable report.session) s.table, reply) ∈
          sendings (own log) := by
        rw [mem_sendings, hown]
        exact List.mem_append_right _ List.mem_cons_self
      exact hsettled.1 _ hm trivial

/-- An import that did not upload sent no parts. -/
theorem unsent_of_run (h : Run client (run client s schema rows) log (some (.done report)))
    (hu : report.uploaded = false) {session part : String}
    (he : request.endpoint = .partUpload session part) (before : List Happening) :
    ¬ Sent before request log := by
  intro hs
  obtain ⟨⟨files, scene, hp⟩, ht⟩ := h
  rcases hs.cases hp with ⟨other, file, ticket, -, hstart⟩ | ⟨reply, after, hown⟩
  · have hl : (other, Started.mk ticket file) ∈ launches (own log) :=
      mem_launches.2 (hs.own_prefix.subset hstart)
    simp [launches_of_run ht hu] at hl
  · obtain ⟨_, preparing, feeding, driving, call, last, hstages, hst⟩ := staged_of_run ht
    have hm : (⟨.api (.send request), reply⟩ : Event) ∈ own log := by
      rw [hown]
      exact List.mem_append_right _ List.mem_cons_self
    exact hst.not_uploads (hstages ▸ hm) (by simp [he])

/-- A scratch table that was made is put in the place of the destination, whatever its creation was
answered and whatever the session is found to be. If that is one that takes no parts, such as one
that is committed, then none was sent. -/
theorem placed_of_made {made : Api.Reply} {shown : Api.Session}
    (h : Run client (run client s schema rows) log (some (.done report))) (hm : s.mode = .replace)
    (hmade : (Depot.making s.database (s.loadTable report.session), made) ∈ sendings (own log))
    (hfound : found report.session s.database (s.loadTable report.session) (sendings (own log)) =
      some shown) (hn : ¬ Taking shown) :
    (∃ before, Sent before (swapping s.database (s.loadTable report.session) s.table) log) ∧
      ∀ before request session part, request.endpoint = .partUpload session part →
        ¬ Sent before request log := by
  refine ⟨?_, fun before request session part he => unsent_of_run h ?_ he before⟩
  · obtain ⟨swap, hsettled, hasked⟩ := settled_of_run h.trace hm
    cases swap with
    | true =>
      obtain ⟨reply, hr⟩ := hasked rfl
      exact exists_sent_of_mem hr
    | false => exact absurd trivial (hsettled.1 _ hmade)
  · obtain ⟨shown', hfound', huploaded⟩ := opening_of_run h.trace
    obtain rfl := Option.some.inj (hfound.symm.trans hfound')
    exact Bool.eq_false_iff.2 (mt huploaded.1 hn)

end BulkLoad.Import

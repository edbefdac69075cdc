import BulkLoad.Proofs.Import.Order
import BulkLoad.Proofs.Service.Landmarks

/-!
# Which tables are put in place

In replace mode an import settles at its beginning whether the scratch table is to be put in the
place of the destination : it is unless the session is committed and the table gone. Neither table
nor rename is requested otherwise (`due_of_arranging`), whatever the service answers later on.

Nothing is learned from the creation of the scratch table, though. When the session was not yet
committed at the beginning, the table was just made, and the session turns out to be committed after
that, the empty table is put in the place of the destination all the same (`empty_table_placed`).
-/

namespace BulkLoad

/-- The operation makes a table, or gives one another name. -/
@[simp] def Api.Endpoint.Arranges : Api.Endpoint → Prop
  | .tableCreate .. | .tableRename .. => True
  | _ => False

namespace Import

open Program (Trace Keeps)

variable {client : Api.Client} {s : Settings} {schema : Schema}
  {rows : List (Except RowFault Row)} {name : String} {request : Api.Request}
  {sent : List (Api.Request × Api.Reply)}

/-! ## What was told -/

/-- The first reply to a request that tells a verdict. -/
def firstTold (request : Api.Request) (sent : List (Api.Request × Api.Reply)) : Option Api.Reply :=
  (sent.find? fun sending => sending.1 = request ∧ verdict request sending.2 ≠ .lost).map Prod.snd

/-- The service has told at first that a scratch table is still to be put in place. -/
inductive Due (s : Settings) (name : String) (sent : List (Api.Request × Api.Reply)) : Prop
  /-- The session is not there yet. -/
  | unmade {reply : Api.Reply} (h : firstTold (lookAt name) sent = some reply)
    (hv : verdict (lookAt name) reply = .missing)
  | uncommitted {reply : Api.Reply} {shown : Api.Session}
    (h : firstTold (lookAt name) sent = some reply) (hs : seen name reply = some shown)
    (hn : shown.status ≠ .committed)
  /-- The scratch table is still there. -/
  | unplaced {reply : Api.Reply} {tables : List Api.Table} {table : Api.Table}
    (h : firstTold (listing s.database) sent = some reply)
    (hl : listed s.database reply = some tables) (hm : table ∈ tables)
    (hn : table.name = s.loadTable name)

/-- The service has told at first that the session is committed and that the scratch table is not
there any more. -/
structure Undue (s : Settings) (name : String) (sent : List (Api.Request × Api.Reply)) : Prop where
  committed : ∃ reply shown, firstTold (lookAt name) sent = some reply ∧
    seen name reply = some shown ∧ shown.status = .committed
  gone : ∃ reply tables, firstTold (listing s.database) sent = some reply ∧
    listed s.database reply = some tables ∧ ∀ table ∈ tables, table.name ≠ s.loadTable name

theorem firstTold_append_of_some {reply : Api.Reply} (h : firstTold request sent = some reply)
    (later : List (Api.Request × Api.Reply)) : firstTold request (sent ++ later) = some reply := by
  obtain ⟨sending, hf, rfl⟩ := Option.map_eq_some_iff.1 h
  simp only [firstTold, List.find?_append, hf, Option.some_or, Option.map_some]

theorem firstTold_snoc {request' : Api.Request} {reply : Api.Reply}
    (h : firstTold request sent = none) :
    firstTold request (sent ++ [(request', reply)]) =
      if request' = request ∧ verdict request reply ≠ .lost then some reply else none := by
  have hf := Option.map_eq_none_iff.1 h
  simp only [firstTold, List.find?_append, hf, Option.none_or, List.find?_singleton]
  split <;> simp_all

theorem Due.append (h : Due s name sent) (later : List (Api.Request × Api.Reply)) :
    Due s name (sent ++ later) := by
  cases h with
  | unmade h hv => exact .unmade (firstTold_append_of_some h later) hv
  | uncommitted h hs hn => exact .uncommitted (firstTold_append_of_some h later) hs hn
  | unplaced h hl hm hn => exact .unplaced (firstTold_append_of_some h later) hl hm hn

theorem Undue.append (h : Undue s name sent) (later : List (Api.Request × Api.Reply)) :
    Undue s name (sent ++ later) where
  committed := by
    obtain ⟨reply, shown, hf, hs⟩ := h.committed
    exact ⟨reply, shown, firstTold_append_of_some hf later, hs⟩
  gone := by
    obtain ⟨reply, tables, hf, ht⟩ := h.gone
    exact ⟨reply, tables, firstTold_append_of_some hf later, ht⟩

theorem Undue.not_due (h : Undue s name sent) : ¬ Due s name sent := by
  obtain ⟨reply, shown, hf, hs, hc⟩ := h.committed
  rintro (⟨hf', hv⟩ | ⟨hf', hs', hn⟩ | ⟨hf', hl, hm, hn⟩)
  · obtain rfl := Option.some.inj (hf.symm.trans hf')
    obtain ⟨e, he, -⟩ := missing_of_verdict hv
    simp [seen, he] at hs
  · obtain rfl := Option.some.inj (hf.symm.trans hf')
    exact hn (Option.some.inj (hs.symm.trans hs') ▸ hc)
  · obtain ⟨reply, tables, hf, hl', hgone⟩ := h.gone
    obtain rfl := Option.some.inj (hf.symm.trans hf')
    obtain rfl := Option.some.inj (hl.symm.trans hl')
    exact hgone _ hm hn

/-! ## Records -/

/-- The service as a record of the requests and the replies to them. -/
def recording : Behaviour (List (Api.Request × Api.Reply)) where
  moves _ _ := False
  treats sent request reply sent' := sent' = sent ++ [(request, reply)]

theorem recording_serves : ∀ sent before, recording.Serves before sent (before ++ sent)
  | [], before => by simpa using .nil before
  | (request, reply) :: sent, before => by
    have h := recording_serves sent (before ++ [(request, reply)])
    rw [List.append_assoc] at h
    exact .treated rfl h

/-- No table was requested, nor any rename. -/
def Unarranged (sent : List (Api.Request × Api.Reply)) : Prop :=
  ∀ sending ∈ sent, ¬ sending.1.endpoint.Arranges

/-- Tables and renames were requested only when they were due. -/
def Warranted (s : Settings) (sent : List (Api.Request × Api.Reply)) : Prop :=
  ∀ before request reply after, sent = before ++ (request, reply) :: after →
    request.endpoint.Arranges → ∃ name, Due s name before

theorem Unarranged.warranted (h : Unarranged sent) : Warranted s sent := by
  rintro before request reply after rfl hr
  exact absurd hr (h (request, reply) (by simp))

theorem Unarranged.snoc (h : Unarranged sent) (hr : ¬ request.endpoint.Arranges)
    (reply : Api.Reply) : Unarranged (sent ++ [(request, reply)]) :=
  List.forall_mem_append.2 ⟨h, by simpa only [List.forall_mem_singleton] using hr⟩

theorem Warranted.snoc (h : Warranted s sent) (hd : Due s name sent) (reply : Api.Reply) :
    Warranted s (sent ++ [(request, reply)]) := by
  intro before request' reply' after he hr
  rcases List.eq_nil_or_concat after with rfl | ⟨after, last, rfl⟩
  · obtain ⟨rfl, -⟩ := List.append_inj' he rfl
    exact ⟨name, hd⟩
  · have hsplit : sent ++ [(request, reply)] =
        (before ++ (request', reply') :: after) ++ [last] := by simpa using he
    exact h before request' reply' after (List.append_inj' hsplit rfl).1 hr

/-! ## Stages -/

/-- What is recorded once it is settled whether a swap is wanted. -/
def Settled (s : Settings) (name : String) (swap : Bool) (sent : List (Api.Request × Api.Reply)) :
    Prop :=
  match swap with
  | true => Warranted s sent ∧ Due s name sent
  | false => Unarranged sent ∧ Undue s name sent

/-- Tables and renames are requested only when they are due. -/
def warranting (s : Settings) : Aim (List (Api.Request × Api.Reply)) Error where
  always := Warranted s

theorem steady_settled (name : String) (swap : Bool) :
    Steady recording (warranting s) (Settled s name swap) where
  lasts _ _ m := m.elim
  within sent h := by
    cases swap with
    | true => exact h.1
    | false => exact h.1.warranted

/-- A stage of an import that is not about tables unless a swap is wanted. -/
theorem brings_settled {α : Type} {p : Work Error α} {N : Question → Prop} {K : α → Prop}
    {swap : Bool} (h : p.Keeps N K)
    (hN : ∀ request, N (.api (.send request)) → swap = true ∨ ¬ request.endpoint.Arranges) :
    Brings recording (warranting s) (Settled s name swap) p fun _ => Settled s name swap := by
  refine (Brings.of_keeps h hN (steady_settled name swap) (fun _ _ => trivial) ?_
    (fun _ => trivial) trivial).mono (fun _ => id) fun _ _ hs => hs.2
  rintro request hr sent reply sent' hs rfl
  cases swap with
  | true => exact ⟨hs.1.snoc hs.2 reply, hs.2.append _⟩
  | false => exact ⟨hs.1.snoc (by simpa using hr) reply, hs.2.append _⟩

/-- A request whose first reply tells what is read of it, in the part of the record that is
viewed. -/
theorem brings_told (request : Api.Request) {γ : Type}
    {aim : Aim (List (Api.Request × Api.Reply)) Error}
    {k : Except Api.Error (List UInt8) → Except Api.Error γ}
    (F : List (Api.Request × Api.Reply) → Prop)
    (view : List (Api.Request × Api.Reply) → List (Api.Request × Api.Reply))
    (hsends : aim.sends request) (hfails : ∀ e, aim.fails (.api e))
    (hk : ∀ e, e.isConflict = false → e.isNotFound = false → k (.error e) = .error e)
    (hwithin : ∀ sent, F sent → aim.always sent)
    (hF : ∀ sent reply, F sent → F (sent ++ [(request, reply)]))
    (hview : ∀ sent reply, F sent →
      view (sent ++ [(request, reply)]) = view sent ++ [(request, reply)]) :
    Brings recording aim (fun sent => F sent ∧ firstTold request (view sent) = none)
      (requesting client request k)
      fun c sent => F sent ∧ ∃ reply, firstTold request (view sent) = some reply ∧
        k (Api.Client.settle request reply) = .ok c := by
  have hsteady {J : List (Api.Request × Api.Reply) → Prop} :
      Steady recording aim fun sent => F sent ∧ J sent :=
    ⟨fun _ _ m => m.elim, fun _ hs => hwithin _ hs.1⟩
  refine Judged.requesting (.of_verdicts hsends hsteady (fun _ => hsteady)
    (fun _ _ m => m.elim) hk ?_ ?_)
  · rintro sent reply sent' ⟨hf, hn⟩ rfl hl
    refine ⟨⟨hF _ _ hf, ?_⟩, hfails⟩
    rw [hview _ _ hf, firstTold_snoc hn, if_neg (by simp [hl])]
  · rintro sent reply sent' ⟨hf, hn⟩ rfl hl
    cases hc : k (Api.Client.settle request reply) with
    | ok c =>
      refine ⟨hF _ _ hf, reply, ?_, hc⟩
      rw [hview _ _ hf, firstTold_snoc hn, if_pos ⟨rfl, hl⟩]
    | error e => exact ⟨hfails e, hwithin _ (hF _ _ hf)⟩

/-- What the first look at a session tells. -/
theorem brings_look_first : Brings recording (warranting s) (· = [])
    (callingOrMissing (client.session name)) fun existing sent =>
      (Unarranged sent ∧ firstTold (listing s.database) sent = none) ∧
        ∃ reply, firstTold (lookAt name) sent = some reply ∧
          Api.ignoreNotFound (decoded client (.sessionShow name) Api.Session.decoder
            (Api.Client.settle (lookAt name) reply)) = .ok existing := by
  change Brings _ _ _ (callingOrMissing (client.fetch (.sessionShow name) Api.Session.decoder)) _
  rw [callingOrMissing_fetch]
  refine (brings_told (lookAt name)
    (fun sent => Unarranged sent ∧ firstTold (listing s.database) sent = none) id trivial
    (fun _ => trivial) ?_ (fun _ hs => hs.1.warranted) ?_ fun _ _ _ => rfl).mono ?_ fun _ _ => id
  · intro e _ hn
    simp [decoded, Api.ignoreNotFound, hn]
  · rintro sent reply ⟨hu, hf⟩
    refine ⟨hu.snoc (by simp [lookAt]) reply, ?_⟩
    rw [firstTold_snoc hf, if_neg (by simp [lookAt, listing])]
  · rintro sent rfl
    exact ⟨⟨by simp [Unarranged], rfl⟩, rfl⟩

/-- What the first list of the tables tells, when a session was shown before. -/
theorem brings_list_first (name : String) (shown : Api.Session) :
    Brings recording (warranting s)
    (fun sent => (Unarranged sent ∧ firstTold (listing s.database) sent = none) ∧
      ∃ reply, firstTold (lookAt name) sent = some reply ∧ seen name reply = some shown)
    (calling (client.tables s.database)) fun tables sent =>
      (Unarranged sent ∧
        ∃ reply, firstTold (lookAt name) sent = some reply ∧ seen name reply = some shown) ∧
      ∃ reply, firstTold (listing s.database) sent = some reply ∧
        listed s.database reply = some tables := by
  change Brings _ _ _ (calling (client.fetch (.tableList s.database) Api.Table.listDecoder)) _
  rw [calling_fetch]
  refine (brings_told (listing s.database) (fun sent => Unarranged sent ∧
    ∃ reply, firstTold (lookAt name) sent = some reply ∧ seen name reply = some shown) id trivial
    (fun _ => trivial) (fun _ _ _ => rfl) (fun _ hs => hs.1.warranted) ?_ fun _ _ _ => rfl).mono
    (fun _ ⟨⟨hu, hn⟩, hseen⟩ => ⟨⟨hu, hseen⟩, hn⟩) ?_
  · rintro sent reply ⟨hu, looked, hf, hseen⟩
    exact ⟨hu.snoc (by simp [listing]) reply, looked, firstTold_append_of_some hf _, hseen⟩
  · rintro tables sent ⟨hs, reply, hf, hd⟩
    exact ⟨hs, reply, hf, decoded_iff_listed.1 hd⟩

/-- A swap is settled by the first replies. -/
theorem brings_swapWanted (hm : s.mode = .replace) :
    Brings recording (warranting s) (· = []) (swapWanted client s name (s.loadTable name))
      (Settled s name) := by
  have hsteady {J : List (Api.Request × Api.Reply) → Prop} (hJ : ∀ sent, J sent → Unarranged sent) :
      Steady recording (warranting s) J :=
    ⟨fun _ _ m => m.elim, fun sent hs => (hJ sent hs).warranted⟩
  have hdecide : Brings recording (warranting s) (· = [])
      (swapPending client s name (s.loadTable name)) (Settled s name) := by
    refine brings_look_first.bind fun existing => ?_
    split
    next hc =>
      obtain ⟨shown, rfl, hshown⟩ : ∃ shown, existing = some shown ∧ shown.status = .committed := by
        simpa [Option.any_eq_true] using hc
      refine Brings.mono ((brings_list_first name shown).bind fun tables =>
        Brings.pure (hsteady fun _ hs => hs.1.1) ?_) ?_ fun _ _ => id
      · rintro sent ⟨⟨hu, hlooked⟩, reply, hf, hl⟩
        cases ha : tables.any (·.name = s.loadTable name) with
        | true =>
          obtain ⟨table, ht, hn⟩ := List.any_eq_true.1 ha
          exact ⟨hu.warranted, .unplaced hf hl ht (by simpa using hn)⟩
        | false =>
          obtain ⟨looked, hf', hseen⟩ := hlooked
          exact ⟨hu, ⟨looked, shown, hf', hseen, hshown⟩, reply, tables, hf, hl, by simpa using ha⟩
      · rintro sent ⟨hu, reply, hf, hr⟩
        rcases missing_or_decoded hr with ⟨hnone, -⟩ | ⟨c, hsome, hd⟩
        · cases hnone
        · cases hsome
          exact ⟨hu, reply, hf, decoded_iff_seen.1 hd⟩
    next hc =>
      refine Brings.pure (hsteady fun _ hs => hs.1.1) ?_
      rintro sent ⟨⟨hu, -⟩, reply, hf, hr⟩
      refine ⟨hu.warranted, ?_⟩
      rcases missing_or_decoded hr with ⟨-, hv⟩ | ⟨shown, rfl, hd⟩
      · exact .unmade hf hv
      · exact .uncommitted hf (decoded_iff_seen.1 hd) (by simpa using hc)
  simpa only [swapWanted, hm] using hdecide

theorem keeps_prepare_swap {swap : Bool} {loadTable : String} (hm : s.mode = .replace) :
    (prepare client s loadTable swap).Keeps (fun _ => swap = true) fun _ => True := by
  cases swap with
  | true => exact Keeps.of_forall (fun _ => rfl) (fun _ => trivial) _
  | false =>
    simp only [prepare, hm]
    exact Keeps.pure trivial

theorem keeps_putInPlace_swap {swap : Bool} {loadTable : String} :
    (putInPlace client s loadTable swap).Keeps (fun _ => swap = true) fun _ => True := by
  cases swap with
  | true => exact Keeps.of_forall (fun _ => rfl) (fun _ => trivial) _
  | false => exact Keeps.pure trivial

/-- What is settled at the beginning of an import holds to its end. -/
theorem route_settled (hm : s.mode = .replace) :
    Route recording (warranting s) client s schema rows
      ⟨(· = []), Settled s, Settled s, Settled s, Settled s, Settled s, Settled s⟩ where
  entered := by
    refine ⟨fun _ _ m => m.elim, ?_⟩
    rintro sent rfl
    exact Unarranged.warranted (by simp [Unarranged])
  loaded name swap := steady_settled name swap
  driven name swap := steady_settled name swap
  left name swap := steady_settled name swap
  resolves _ _ := trivial
  decides name _ := brings_swapWanted hm
  prepares name swap := brings_settled (keeps_prepare_swap hm) fun _ => Or.inl
  loads name swap writers report hr := by
    subst hr
    have hstart : ((SessionDriver.ofSettings client s).start report.session s.database
        (s.loadTable report.session)).Keeps (Makes fun request => ¬ request.endpoint.Arranges)
        fun _ => True :=
      makes_start (by simp) (by simp [lookAt])
    exact brings_uploadInto (steady_settled _ swap)
      (brings_settled hstart fun _ hq => Or.inr (hq.2 _ rfl)) (fun _ _ => id)
      fun _ _ => ⟨fun _ => trivial, trivial⟩
  drives name swap := brings_settled SessionDriver.keeps_complete fun request hq => Or.inr <| by
    rcases hq.2 _ rfl with rfl | rfl | rfl | rfl <;>
      simp [lookAt, SessionDriver.freezing, SessionDriver.performing, SessionDriver.committing]
  places name swap := brings_settled keeps_putInPlace_swap fun _ => Or.inl
  leaves name swap := brings_settled keeps_cleanUp fun request hq => Or.inr <| by
    rw [hq.2 _ rfl]
    simp [deleting]

/-- In replace mode tables and renames are requested only when the service has told at first that
the scratch table is still to be put in place. -/
theorem due_of_arranging {log before : List Happening} {outcome : Option (Outcome Error Report)}
    (h : Run client (run client s schema rows) log outcome) (hm : s.mode = .replace)
    (hsent : Sent before request log) (hr : request.endpoint.Arranges) :
    ∃ name, Due s name (sendings (own before)) := by
  obtain ⟨⟨files, scene, hp⟩, ht⟩ := h
  rcases hsent.cases hp with ⟨session, file, ticket, rfl, -⟩ | ⟨reply, after, hown⟩
  · simp [Upload.sending] at hr
  · have hw := ((route_settled hm).brings_run.meets rfl ht (recording_serves _ [])).always
    refine hw (sendings (own before)) request reply (sendings after) ?_ hr
    simp [hown]

theorem sent_of_request? {log : List Happening} {n : Nat}
    (h : (log[n]?).bind Happening.request? = some request) : Sent (log.take n) request log := by
  obtain ⟨happening, hl, hr⟩ := Option.bind_eq_some_iff.1 h
  obtain ⟨hn, hl⟩ := List.getElem?_eq_some_iff.1 hl
  refine ⟨happening, log.drop (n + 1), ?_, hr⟩
  rw [← hl, List.getElem_cons_drop, List.take_append_drop]

/-- The replacement puts the scratch table in place, which was due : the session was uploading. -/
theorem due_replaced :
    Sent (replaced.1.take 33) (swapping "d" "t_s" "t") replaced.1 ∧ replacement.mode = .replace ∧
      (swapping "d" "t_s" "t").endpoint.Arranges ∧
      ∃ name, Due replacement name (sendings (own (replaced.1.take 33))) := by
  have hsent : Sent (replaced.1.take 33) (swapping "d" "t_s" "t") replaced.1 :=
    sent_of_request? (by decide +kernel)
  have hrun : Run SessionDriver.careful.client (run SessionDriver.careful.client replacement
      ⟨[⟨"time", .long⟩]⟩ [.ok [.long 1], .ok [.long 2]]) replaced.1 replaced.2 :=
    run_of_play _ _ _ _
  exact ⟨hsent, rfl, trivial, due_of_arranging hrun rfl hsent trivial⟩

/-- A service at which a session is committed while an import is under way. -/
def overtaking : Rehearsal.World where
  service :=
    { routes := [⟨"GET *", [SessionDriver.told "t_s" "committing",
          SessionDriver.told "t_s" "committed"]⟩,
        ⟨"POST /v3/bulk_import/create/*", [{ status := 409 }]⟩, ⟨"POST *", [{}]⟩] }
  moment := SessionDriver.epoch

/-- A row is imported at that service. -/
def overtaken : List Happening × Option (Outcome Error Report) :=
  play SessionDriver.careful.client (attended SessionDriver.careful.client)
    (run SessionDriver.careful.client replacement ⟨[⟨"time", .long⟩]⟩ [.ok [.long 1]])
    ⟨[], fun _ => none⟩ overtaking

/-- The service tells that the scratch table was not there before, and that the session is committed
already. The table, in which nothing was loaded, takes the place of the destination. -/
theorem empty_table_placed : ∃ log report,
    Run SessionDriver.careful.client (run SessionDriver.careful.client replacement
      ⟨[⟨"time", .long⟩]⟩ [.ok [.long 1]]) log (some (.done report)) ∧
    traffic log =
      [(lookAt "s", .answered 200 (SessionDriver.told "t_s" "committing").body),
        (⟨.post, .databaseCreate "d", .empty⟩, .answered 200 []),
        (⟨.post, .tableCreate "d" "t_s", .empty⟩, .answered 200 []),
        (creating "s" "d" "t_s", .answered 409 []),
        (lookAt "s", .answered 200 (SessionDriver.told "t_s" "committed").body),
        (lookAt "s", .answered 200 (SessionDriver.told "t_s" "committed").body),
        (lookAt "s", .answered 200 (SessionDriver.told "t_s" "committed").body),
        (swapping "d" "t_s" "t", .answered 200 []), (deleting "s", .answered 200 [])] := by
  have hrun : Run SessionDriver.careful.client (run SessionDriver.careful.client replacement
      ⟨[⟨"time", .long⟩]⟩ [.ok [.long 1]]) overtaken.1 overtaken.2 :=
    run_of_play _ _ _ _
  have hended : overtaken.2 = some (.done { session := "s", database := "d", table := "t" }) := by
    decide +kernel
  rw [hended] at hrun
  exact ⟨_, _, hrun, by decide +kernel⟩

end Import

end BulkLoad

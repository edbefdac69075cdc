import BulkLoad.Proofs.Import.Composition
import BulkLoad.Proofs.Import.Ledger
import BulkLoad.Proofs.Import.Requests

/-!
# Rows that are let in

After a row is read and before it is looked at, an import asks whether it is cancelled. The rows
that are let in are the first ones. One that is dismissed ends the import before anything that was
loaded is taken on (`admits_run`), and nothing that the import does depends on what is in that row
or comes after it (`covers_run`).
-/

namespace BulkLoad.Import

open Program (Trace Keeps)

variable {ε ε' α β : Type} {client : Api.Client} {s : Settings} {events : List Event}

/-! ## What a trace says of the rows -/

/-- A row is read, but the import is cancelled. -/
def dismissal : Event :=
  ⟨.cancelled, true⟩

/-- A row is read and may be written. -/
def admits : Event → Bool
  | ⟨.cancelled, cancelled⟩ => !(cancelled : Bool)
  | _ => false

/-- The number of the rows that are let in. -/
def admitted (events : List Event) : Nat :=
  events.countP admits

@[simp] theorem admitted_append (first rest : List Event) :
    admitted (first ++ rest) = admitted first + admitted rest :=
  List.countP_append

@[simp] theorem admitted_admission (rest : List Event) :
    admitted (⟨.cancelled, false⟩ :: rest) = admitted rest + 1 :=
  List.countP_cons_of_pos rfl

theorem admitted_of_unasked (h : ∀ e ∈ events, e.1 ≠ .cancelled) : admitted events = 0 := by
  refine List.countP_eq_zero.2 fun ⟨q, a⟩ he => ?_
  cases q with
  | cancelled => exact absurd rfl (h _ he)
  | _ => simp [admits]

theorem not_dismissed_of_unasked (h : ∀ e ∈ events, e.1 ≠ .cancelled) : dismissal ∉ events :=
  fun hm => h _ hm rfl

/-- The stages around the feed read no rows. -/
theorem Composed.unasked {p : Work Error α} (h : Composed client p) :
    p.Keeps (· ≠ .cancelled) fun _ => True := by
  have made {ε α : Type} {call : Api.Call α} :
      (Import.attempting call : Work ε (Except Api.Error α)).Keeps (· ≠ .cancelled)
        fun _ => True :=
    (Keeps.attempt (Keeps.embed (Keeps.of_forall (R := fun _ => True) (fun _ => by simp)
      (fun _ => trivial) call))).mono (fun _ hq => hq) fun _ _ => trivial
  induction h with
  | pure => exact Keeps.pure trivial
  | throw e => exact Keeps.throw e
  | aborted => trivial
  | ask hq =>
    refine Keeps.query ?_
    rintro rfl
    exact hq
  | @calling _ call _ =>
    exact Keeps.mapError (Keeps.embed (Keeps.of_forall (fun _ => by simp) (fun _ => trivial) call))
  | callingOrMissing => exact Keeps.bind made fun _ _ => Keeps.ofExcept fun _ _ => trivial
  | attempting _ he _ ih =>
    refine Keeps.bind made fun r _ => ?_
    cases r with
    | error e =>
      obtain ⟨e', hf⟩ := he e
      exact hf ▸ Keeps.throw e'
    | ok a => exact ih a
  | callingOrConflict _ ih =>
    exact Keeps.bind (Keeps.bind made fun _ _ => Keeps.ofExcept (R := fun _ => True) fun _ _ =>
      trivial) fun _ _ => ih
  | bind _ _ ih ihf => exact Keeps.bind ih fun a _ => ihf a

/-- A question that reads no row and takes nothing on. -/
def Early (q : Question) : Prop :=
  q ≠ .cancelled ∧ ∀ request, q = .api (.send request) → ¬ request.endpoint.Settles

theorem early_of_preparing {p : Work Error α} {R : α → Prop} (h : Composed client p)
    (hp : p.Keeps Preparing R) : p.Keeps Early fun _ => True :=
  (h.unasked.and hp).mono (fun _ hq => ⟨hq.1, fun request hr => (hq.2.2 request hr).2⟩)
    fun _ _ => trivial

theorem early_of_writing (session : String) {p : Work ε α} {R : α → Prop}
    (h : p.Keeps (Writing session) R) : p.Keeps Early fun _ => True :=
  h.mono (fun _ hq => ⟨hq.2, fun _ hr => absurd hr (hq.1.1 _)⟩) fun _ _ => trivial

theorem unasked_of_early {p : Work ε α} {R : α → Prop} (h : p.Keeps Early R) :
    p.Keeps (· ≠ .cancelled) R :=
  h.mono (fun _ hq => hq.1) fun _ ha => ha

/-- What a trace says of the rows : those that are let in come first, and when the next one is
dismissed, the program fails and has taken nothing on. -/
structure Admission (rows : List (Except RowFault Row)) (F : ε → Prop) (events : List Event)
    (outcome : Option (Outcome ε α)) : Prop where
  first : ∃ (taken : List Row) (rest : List (Except RowFault Row)),
    rows = taken.map .ok ++ rest ∧ taken.length = admitted events ∧
    (dismissal ∈ events → ∃ row more, rest = .ok row :: more)
  failed : dismissal ∈ events → outcome = none ∨ ∃ e, outcome = some (.failed e) ∧ F e
  early : dismissal ∈ events → ∀ e ∈ events, ∀ request, e.1 = .api (.send request) →
    ¬ request.endpoint.Settles

/-- A program lets rows in one after the other, and fails when it is cancelled. -/
def Admits (rows : List (Except RowFault Row)) (F : ε → Prop) (p : Work ε α) : Prop :=
  ∀ events outcome, Trace p events outcome → Admission rows F events outcome

theorem Admission.of_unasked {rows : List (Except RowFault Row)} {F : ε → Prop}
    {outcome : Option (Outcome ε α)} (h : ∀ e ∈ events, e.1 ≠ .cancelled) :
    Admission rows F events outcome := by
  have hn := not_dismissed_of_unasked h
  exact ⟨⟨[], rows, rfl, (admitted_of_unasked h).symm, fun hm => absurd hm hn⟩,
    fun hm => absurd hm hn, fun hm => absurd hm hn⟩

namespace Admits

variable {rows : List (Except RowFault Row)} {F : ε → Prop} {G : ε' → Prop} {p : Work ε α}
  {R : α → Prop}

theorem of_unasked (h : p.Keeps (· ≠ .cancelled) R) : Admits rows F p :=
  fun _ _ ht => .of_unasked (h.of_trace ht).1

/-- What comes before the rows are read. -/
theorem after {f : α → Work ε β} (h : p.Keeps Early R) (hf : ∀ a, Admits rows F (f a)) :
    Admits rows F (p >>= f) := by
  intro events outcome ht
  rcases h.of_trace_bind ht with ⟨first, a, rest, rfl, hq, -, h₂⟩ | ⟨hq, -⟩
  · obtain ⟨⟨taken, later, rfl, hl, hnext⟩, hfailed, hearly⟩ := hf a rest outcome h₂
    have hfirst : ∀ e ∈ first, e.1 ≠ .cancelled := fun e he => (hq e he).1
    have hrest (hm : dismissal ∈ first ++ rest) : dismissal ∈ rest :=
      (List.mem_append.1 hm).resolve_left (not_dismissed_of_unasked hfirst)
    refine ⟨⟨taken, later, rfl, ?_, fun hm => hnext (hrest hm)⟩, fun hm => hfailed (hrest hm),
      fun hm e he request hr => ?_⟩
    · rw [admitted_append, admitted_of_unasked hfirst, hl, Nat.zero_add]
    · rcases List.mem_append.1 he with he | he
      · exact (hq e he).2 request hr
      · exact hearly (hrest hm) e he request hr
  · exact .of_unasked fun e he => (hq e he).1

/-- What comes after the rows are read is not reached when one of them is dismissed. -/
theorem before {f : α → Work ε β} {S : β → Prop} (h : Admits rows F p)
    (hf : ∀ a, (f a).Keeps (· ≠ .cancelled) S) : Admits rows F (p >>= f) := by
  intro events outcome ht
  rcases Trace.of_bind ht with ⟨first, a, rest, rfl, h₁, h₂⟩ | ⟨stop, h₁, hs⟩
  · have hrest := ((hf a).of_trace h₂).1
    obtain ⟨⟨taken, later, rfl, hl, -⟩, hfailed, -⟩ := h first _ h₁
    have hn : dismissal ∉ first ++ rest := by
      intro hm
      rcases List.mem_append.1 hm with hm | hm
      · rcases hfailed hm with ho | ⟨e, ho, -⟩ <;> cases ho
      · exact not_dismissed_of_unasked hrest hm
    refine ⟨⟨taken, later, rfl, ?_, fun hm => absurd hm hn⟩, fun hm => absurd hm hn,
      fun hm => absurd hm hn⟩
    rw [admitted_append, admitted_of_unasked hrest, hl, Nat.add_zero]
  · obtain ⟨hfirst, hfailed, hearly⟩ := h events stop h₁
    refine ⟨hfirst, fun hm => ?_, hearly⟩
    rcases hfailed hm with rfl | ⟨e, rfl, he⟩
    · cases hs
      exact Or.inl rfl
    · cases hs
      exact Or.inr ⟨e, rfl, he⟩

/-- The failure is handled, and then reported. -/
theorem handled {f : Except ε α → Work ε' β} {S : β → Prop} (h : Admits rows F p)
    (hok : ∀ a, (f (.ok a)).Keeps (· ≠ .cancelled) S) (herror : ∀ e, (f (.error e)).Keeps Early S)
    (hfails : ∀ e, F e → ∃ e', (f (.error e)).Fails e' ∧ G e') :
    Admits rows G (p.attempt >>= f) := by
  intro events outcome ht
  rcases Trace.of_bind ht with ⟨first, r, rest, rfl, h₁, h₂⟩ | ⟨stop, h₁, hs⟩
  · obtain ⟨inner, hi, ho⟩ := Trace.of_attempt h₁
    obtain ⟨⟨taken, later, rfl, hl, hnext⟩, hfailed, hearly⟩ := h first inner hi
    have hrest : ∀ e ∈ rest, e.1 ≠ .cancelled := by
      cases r with
      | ok a => exact ((hok a).of_trace h₂).1
      | error e => exact fun e' he => (((herror e).of_trace h₂).1 e' he).1
    have hfirst (hm : dismissal ∈ first ++ rest) : dismissal ∈ first :=
      (List.mem_append.1 hm).resolve_right (not_dismissed_of_unasked hrest)
    have hcount : taken.length = admitted (first ++ rest) := by
      rw [admitted_append, admitted_of_unasked hrest, hl, Nat.add_zero]
    -- The dismissal is in the program that is attempted, so what is handled is its failure.
    have reported (hm : dismissal ∈ first) : ∃ e, r = .error e ∧ F e := by
      rcases hfailed hm with rfl | ⟨e, rfl, he⟩
      · cases ho
      · exact ⟨e, by simpa [Outcome.attempt] using ho, he⟩
    refine ⟨⟨taken, later, rfl, hcount, fun hm => hnext (hfirst hm)⟩, fun hm => ?_,
      fun hm e' he' request hr => ?_⟩
    · obtain ⟨e, rfl, he⟩ := reported (hfirst hm)
      obtain ⟨e', hf, hg⟩ := hfails e he
      exact (hf rest outcome h₂).imp_right fun ho => ⟨e', ho, hg⟩
    · obtain ⟨e, rfl, -⟩ := reported (hfirst hm)
      rcases List.mem_append.1 he' with he' | he'
      · exact hearly (hfirst hm) e' he' request hr
      · exact (((herror e).of_trace h₂).1 e' he').2 request hr
  · obtain ⟨inner, hi, rfl⟩ := Trace.of_attempt h₁
    obtain ⟨hfirst, hfailed, hearly⟩ := h events inner hi
    refine ⟨hfirst, fun hm => ?_, hearly⟩
    rcases hfailed hm with rfl | ⟨e, rfl, -⟩
    · cases hs
      exact Or.inl rfl
    · cases hs

end Admits

/-! ## Rows that do not matter -/

/-- Every trace of a program that lets in `n` rows at most is one of another program. -/
def Covers (n : Nat) (p p' : Work ε α) : Prop :=
  ∀ events outcome, admitted events ≤ n → Trace p events outcome → Trace p' events outcome

namespace Covers

variable {n : Nat} {p p' : Work ε α}

theorem refl (p : Work ε α) : Covers n p p :=
  fun _ _ _ ht => ht

theorem bind {f f' : α → Work ε β} (h : Covers n p p') (hf : ∀ a, Covers n (f a) (f' a)) :
    Covers n (p >>= f) (p' >>= f') := by
  intro events outcome hn ht
  rcases Trace.of_bind ht with ⟨first, a, rest, rfl, h₁, h₂⟩ | ⟨stop, h₁, hs⟩
  · rw [admitted_append] at hn
    exact (h first _ (by omega) h₁).bind_done (hf a rest outcome (by omega) h₂)
  · exact (h events stop hn h₁).bind_stopped hs

theorem attempt (h : Covers n p p') :
    Covers n (p.attempt : Work ε' (Except ε α)) p'.attempt := by
  intro events outcome hn ht
  obtain ⟨inner, hi, rfl⟩ := Trace.of_attempt ht
  exact (h events inner hn hi).attempt

end Covers

/-! ## The feed -/

namespace Feed

variable {plan : Plan} {feed : Feed}

theorem admits_takeRows : ∀ {rows : List (Except RowFault Row)} {feed : Feed},
    Admits rows (fun setback => setback.error = .cancelled) (takeRows plan feed rows)
  | [], feed => by
    unfold takeRows
    split
    · exact .of_unasked (unasked_of_early (early_of_writing _ (keeps_handOver rfl)))
    · exact .of_unasked (R := fun _ => True) (Keeps.pure trivial)
  | .error fault :: rest, feed => .of_unasked (R := fun _ => True) (Keeps.throw _)
  | .ok row :: rest, feed => by
    intro events outcome ht
    rcases Trace.of_query_bind ht with ⟨rfl, rfl⟩ | ⟨cancelled, later, rfl, h₁⟩
    · exact .of_unasked (by simp)
    cases cancelled with
    | true =>
      obtain ⟨rfl, rfl⟩ := Trace.of_failed h₁
      exact ⟨⟨[], _, rfl, rfl, fun _ => ⟨row, rest, rfl⟩⟩, fun _ => Or.inr ⟨_, rfl, rfl⟩,
        fun _ => by simp⟩
    | false =>
      have written : Admits rest (fun setback => setback.error = .cancelled)
          (do takeRows plan (← takeRow plan feed row) rest) :=
        .after (early_of_writing _ (keeps_takeRow rfl)) fun _ => admits_takeRows
      obtain ⟨⟨taken, more, rfl, hl, hnext⟩, hfailed, hearly⟩ := written later outcome h₁
      have hlater (hm : dismissal ∈ ⟨.cancelled, false⟩ :: later) : dismissal ∈ later := by
        simpa [dismissal] using hm
      refine ⟨⟨row :: taken, more, rfl, by simp [hl], fun hm => hnext (hlater hm)⟩,
        fun hm => hfailed (hlater hm), fun hm => ?_⟩
      exact List.forall_mem_cons.2 ⟨by simp, hearly (hlater hm)⟩

/-- What is left after a failure is tidied up, and then the failure is reported. -/
theorem fails_tidying {scheduler : Scheduler} {e : Error} :
    (do feed.discard; let _ ← scheduler.drain; throw e : Work Error α).Fails e := by
  have discards : (feed.discard : Work Error Unit).Ends fun _ => True := by
    unfold discard
    split
    · exact Program.Ends.query (Question.part (.remove _))
    · exact .pure trivial
  have drains : (scheduler.drain : Work Error Scheduler).Ends fun _ => True := by
    intro events outcome ht
    obtain ⟨last, -, ho⟩ := Scheduler.waits_of_drain ht
    exact ho.imp_right fun h => ⟨last, h.2, trivial⟩
  exact discards.fails fun _ => drains.fails fun _ => .throw e

theorem admits_upload {rows : List (Except RowFault Row)} :
    Admits rows (· = .cancelled) (upload plan feed rows) := by
  refine .handled (S := fun _ => True) admits_takeRows (fun feed => ?_) (fun setback => ?_)
    fun setback he => ⟨_, fails_tidying, he⟩
  · exact Keeps.bind (unasked_of_early (early_of_writing "" Scheduler.keeps_finish))
      fun _ _ => Keeps.pure trivial
  · exact Keeps.bind (early_of_writing "" keeps_discard) fun _ _ =>
      Keeps.bind (early_of_writing "" Scheduler.keeps_drain) fun _ _ => Keeps.throw _

/-- Once `taken` rows are let in, the others make no difference. -/
theorem covers_takeRows {row row' : Row} {more more' : List (Except RowFault Row)} :
    ∀ {taken : List Row} {feed : Feed},
      Covers taken.length (takeRows plan feed (taken.map .ok ++ .ok row :: more))
        (takeRows plan feed (taken.map .ok ++ .ok row' :: more'))
  | [], feed => by
    -- The feed asks before it looks at the row, and if it were let in there would be one too many.
    intro events outcome hn ht
    rcases Trace.of_query_bind ht with ⟨rfl, rfl⟩ | ⟨cancelled, later, rfl, h₁⟩
    · exact .cut _ _
    cases cancelled with
    | true => exact .ask _ h₁
    | false => simp at hn
  | first :: taken, feed => by
    intro events outcome hn ht
    rcases Trace.of_query_bind ht with ⟨rfl, rfl⟩ | ⟨cancelled, later, rfl, h₁⟩
    · exact .cut _ _
    cases cancelled with
    | true => exact .ask _ h₁
    | false =>
      have hlater : admitted later ≤ taken.length := by simpa using hn
      have written : Covers taken.length
          (do takeRows plan (← takeRow plan feed first) (taken.map .ok ++ .ok row :: more))
          (do takeRows plan (← takeRow plan feed first) (taken.map .ok ++ .ok row' :: more')) :=
        .bind (.refl _) fun _ => covers_takeRows
      exact .ask _ (written later outcome hlater h₁)

end Feed

/-! ## Whole imports -/

variable {schema : Schema} {rows : List (Except RowFault Row)}

theorem admits_uploadRows {session : String} {writers : Record.WriterSet} :
    Admits rows (· = .cancelled) (uploadRows s session writers rows) :=
  .after (early_of_writing session keeps_chooseStem) fun _ => Feed.admits_upload

theorem admits_uploadInto {d : SessionDriver} {loadTable : String} {writers : Record.WriterSet}
    {report : Report} :
    Admits rows (· = .cancelled) (uploadInto s d loadTable writers rows report) := by
  refine .after (early_of_preparing SessionDriver.composed_start keeps_start) fun takes => ?_
  split
  · exact .before (S := fun _ => True) admits_uploadRows fun _ => Keeps.pure trivial
  · exact .of_unasked (R := fun _ => True) (Keeps.pure trivial)

theorem admits_load : Admits rows (· = .cancelled) (load client s schema rows) :=
  .after (R := fun _ => True) (Keeps.ofExcept fun _ _ => trivial) fun _ =>
    .after (early_of_preparing (composed_chooseSession : Composed client _) keeps_chooseSession)
      fun _ => .after (early_of_preparing composed_swapWanted keeps_swapWanted) fun _ =>
        .after (early_of_preparing composed_prepare keeps_prepare) fun _ =>
          .before (S := fun _ => True) admits_uploadInto fun _ => Keeps.pure trivial

theorem unasked_conclude {swap : Bool} {report : Report} :
    (conclude client s swap report).Keeps (· ≠ .cancelled) fun _ => True := by
  refine Keeps.bind (composed_commit : Composed
      (SessionDriver.ofSettings client s).client _).unasked fun report _ =>
    Keeps.bind (composed_putInPlace : Composed client _).unasked fun _ _ =>
      Keeps.bind (R := fun _ => True) ?_ fun _ _ => Keeps.pure trivial
  unfold cleanUp
  split
  · exact Keeps.bind (Keeps.attempt SessionDriver.composed_delete.unasked)
      fun _ _ => Keeps.pure trivial
  · exact Keeps.pure trivial

theorem admits_run : Admits rows (· = .cancelled) (run client s schema rows) := by
  have clock : (ask .clock : Work Error Nat).Keeps Early fun _ => True :=
    Keeps.query ⟨by simp, by simp⟩
  exact .after clock fun _ => .before (S := fun _ => True) admits_load fun _ =>
    Keeps.bind unasked_conclude fun _ _ =>
      Keeps.bind (unasked_of_early clock) fun _ _ => Keeps.pure trivial

/-- What an import does does not depend on the rows that are not let in. -/
theorem covers_run {taken : List Row} {row row' : Row} {more more' : List (Except RowFault Row)} :
    Covers taken.length (run client s schema (taken.map .ok ++ .ok row :: more))
      (run client s schema (taken.map .ok ++ .ok row' :: more')) := by
  have uploaded {session : String} {writers : Record.WriterSet} :
      Covers taken.length (uploadRows s session writers (taken.map .ok ++ .ok row :: more))
        (uploadRows s session writers (taken.map .ok ++ .ok row' :: more')) :=
    .bind (.refl _) fun _ => .bind Feed.covers_takeRows.attempt fun _ => .refl _
  have staged {d : SessionDriver} {loadTable : String} {writers : Record.WriterSet}
      {report : Report} : Covers taken.length
        (uploadInto s d loadTable writers (taken.map .ok ++ .ok row :: more) report)
        (uploadInto s d loadTable writers (taken.map .ok ++ .ok row' :: more') report) := by
    refine .bind (.refl _) fun takes => ?_
    split
    · exact .bind uploaded fun _ => .refl _
    · exact .refl _
  have loaded : Covers taken.length (load client s schema (taken.map .ok ++ .ok row :: more))
      (load client s schema (taken.map .ok ++ .ok row' :: more')) :=
    .bind (.refl _) fun _ => .bind (.refl _) fun _ => .bind (.refl _) fun _ =>
      .bind (.refl _) fun _ => .bind staged fun _ => .refl _
  exact .bind (.refl _) fun _ => .bind loaded fun _ => .refl _

end BulkLoad.Import

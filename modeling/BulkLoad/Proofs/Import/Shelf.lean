import BulkLoad.Import.Question
import BulkLoad.Proofs.Import.Notes

/-!
# The shelf of part files

As long as nothing fails, an import works on one part file at a time : it makes the file, adds to
it, closes it and starts its upload (`Shelf.Step`). The shelf holds what the import has put into the
files that way : the contents of those handed over for upload, and the file that is open.
-/

namespace BulkLoad.Import

open Program (Trace)

/-- What an import has put into part files. -/
structure Shelf where
  /-- The contents of the files that were handed over, the first one first. -/
  handed : List (List UInt8) := []
  /-- The file that is open, and its content. -/
  current : Option (String × List UInt8) := none

namespace Shelf

/-- What a question does to the shelf, if all goes well. -/
inductive Step : Shelf → Event → Shelf → Prop
  | created {handed : List (List UInt8)} {directory : Option String} {name path : String} :
    Step ⟨handed, none⟩ ⟨.part (.create directory name), .ok path⟩ ⟨handed, some (path, [])⟩
  | appended {handed : List (List UInt8)} {path : String} {content bytes : List UInt8}
    {size : Nat} :
    Step ⟨handed, some (path, content)⟩ ⟨.part (.append path bytes), .ok size⟩
      ⟨handed, some (path, content ++ bytes)⟩
  | closed {handed : List (List UInt8)} {path : String} {content : List UInt8} {size : Nat} :
    Step ⟨handed, some (path, content)⟩ ⟨.part (.close path), .ok size⟩
      ⟨handed, some (path, content)⟩
  | handedOver {handed : List (List UInt8)} {path : String} {content : List UInt8}
    {session : String} {file : Part.File} {ticket : Nat} (h : file.path = path) :
    Step ⟨handed, some (path, content)⟩ ⟨.startUpload session file, ticket⟩
      ⟨handed ++ [content], none⟩
  | aside {shelf : Shelf} {q : Question} (hq : ∀ part, q ≠ .part part)
    (hs : ∀ session file, q ≠ .startUpload session file) (a : Answer q) :
    Step shelf ⟨q, a⟩ shelf

/-- What questions do to the shelf, one after the other. -/
inductive Steps (shelf : Shelf) : List Event → Shelf → Prop
  | nil : Steps shelf [] shelf
  | snoc {events : List Event} {middle last : Shelf} {e : Event} (h : Steps shelf events middle)
    (hs : Step middle e last) : Steps shelf (events ++ [e]) last

variable {shelf middle last : Shelf}

theorem Steps.of_snoc {events : List Event} {e : Event} (h : Steps shelf (events ++ [e]) last) :
    ∃ middle, Steps shelf events middle ∧ Step middle e last := by
  generalize hl : events ++ [e] = all at h
  cases h with
  | nil => simp at hl
  | snoc h hs =>
    obtain ⟨rfl, he⟩ := List.append_inj' hl rfl
    cases he
    exact ⟨_, h, hs⟩

theorem Steps.append {first rest : List Event} (h₁ : Steps shelf first middle)
    (h₂ : Steps middle rest last) : Steps shelf (first ++ rest) last := by
  induction h₂ with
  | nil => simpa using h₁
  | snoc _ hs ih =>
    rw [← List.append_assoc]
    exact .snoc ih hs

theorem Steps.cons {e : Event} {rest : List Event} (hs : Step shelf e middle)
    (h : Steps middle rest last) : Steps shelf (e :: rest) last :=
  Steps.append (.snoc .nil hs) h

theorem Steps.one {e : Event} (hs : Step shelf e last) : Steps shelf [e] last :=
  .snoc .nil hs

/-- Questions about neither files nor uploads leave the shelf as it is. -/
theorem Steps.aside : ∀ {events : List Event},
    (∀ e ∈ events, (∀ part, e.1 ≠ .part part) ∧ ∀ session file, e.1 ≠ .startUpload session file) →
      Steps shelf events shelf
  | [], _ => .nil
  | ⟨_, a⟩ :: _, h =>
    .cons (.aside (h _ List.mem_cons_self).1 (h _ List.mem_cons_self).2 a)
      (.aside fun e he => h e (List.mem_cons_of_mem _ he))

end Shelf

/-! ## Work on one part -/

variable {α : Type} {events : List Event} {part : Part.Builder}

theorem of_onPart {work : Part.Work α} {outcome : Option (Outcome Part.Fault α)}
    (h : Trace (onPart work) events outcome) :
    ∃ inner : List (Program.Event Part.Answer),
      events = inner.map (fun e => (⟨.part e.1, e.2⟩ : Event)) ∧ Trace work inner outcome := by
  obtain ⟨inner, rfl, hw⟩ := Trace.of_embed h
  exact ⟨inner, rfl, by simpa using hw⟩

theorem of_attempt_onPart {ε : Type} {work : Part.Work α} {a : α}
    (h : Trace ((onPart work).attempt : Work ε (Except Part.Fault α)) events
      (some (.done (.ok a)))) :
    ∃ inner : List (Program.Event Part.Answer),
      events = inner.map (fun e => (⟨.part e.1, e.2⟩ : Event)) ∧
        Trace work inner (some (.done a)) := by
  rcases Trace.of_attempt_done h with ⟨b, hb, hw⟩ | ⟨e, he, -⟩
  · obtain rfl : a = b := by simpa using hb
    exact of_onPart hw
  · simp at he

theorem of_create {ε : Type} {directory : Option String} {stem : String} {number : Nat}
    (h : Trace ((onPart (Part.create directory stem number)).attempt :
      Work ε (Except Part.Fault Part.Builder)) events (some (.done (.ok part)))) :
    ∃ path, events = [⟨.part (.create directory (Part.name stem number)), .ok path⟩] ∧
      part = { number, name := Part.name stem number, path } := by
  obtain ⟨inner, rfl, hw⟩ := of_attempt_onPart h
  obtain ⟨r, rest, rfl, hr⟩ := Trace.of_query_bind_done hw
  cases r with
  | ok path =>
    obtain ⟨rfl, rfl⟩ := Trace.of_pure_done hr
    exact ⟨path, rfl, rfl⟩
  | error fault => exact absurd hr Trace.not_throw_done

theorem of_add {ε : Type} {record : Packed} {part' : Part.Builder}
    (h : Trace ((onPart (part.add record)).attempt : Work ε (Except Part.Fault Part.Builder))
      events (some (.done (.ok part')))) :
    ∃ size, events = [⟨.part (.append part.path record.encode), .ok size⟩] ∧
      part' = { part with records := part.records + 1, size } := by
  obtain ⟨inner, rfl, hw⟩ := of_attempt_onPart h
  obtain ⟨r, rest, rfl, hr⟩ := Trace.of_query_bind_done hw
  cases r with
  | ok size =>
    obtain ⟨rfl, rfl⟩ := Trace.of_pure_done hr
    exact ⟨size, rfl, rfl⟩
  | error detail =>
    obtain ⟨_, _, _, rfl, -, ht⟩ := Trace.of_bind_done hr
    exact absurd ht Trace.not_throw_done

theorem of_close {ε : Type} {file? : Option Part.File} (hr : part.records ≠ 0)
    (h : Trace ((onPart part.finish).attempt : Work ε (Except Part.Fault (Option Part.File)))
      events (some (.done (.ok file?)))) :
    ∃ size, events = [⟨.part (.close part.path), .ok size⟩] ∧
      file? = some ⟨part.number, part.name, part.path, part.records, size⟩ := by
  obtain ⟨inner, rfl, hw⟩ := of_attempt_onPart h
  obtain ⟨r, rest, rfl, hc⟩ := Trace.of_query_bind_done hw
  cases r with
  | ok size =>
    simp only [if_neg hr] at hc
    obtain ⟨rfl, rfl⟩ := Trace.of_pure_done hc
    exact ⟨size, rfl, rfl⟩
  | error fault =>
    obtain ⟨_, _, _, rfl, -, ht⟩ := Trace.of_bind_done hc
    exact absurd ht Trace.not_throw_done

end BulkLoad.Import

import PlatformProxy.Platform.Recording
import PlatformProxy.Proofs.Transition

/-!
# Transcripts

What is said here of a query on a client that may answer anything is said of the calls the query
makes and of the answers it gets, in order. A recorded list of calls is not enough for that, as the
answers are not determined by the calls. So a transcript keeps both.

A transcript is taken by a client that passes every call on. A program that works with any client
cannot tell the difference, but this is no theorem for all such programs at once. It is part of
what `Performs` says of one program, and is carried from the calls of a program to the whole of it.

## Main definitions

* `Platform.Call.Answer`, `Platform.Answered` — what a call returns, and a call with its answer
* `Platform.Transcript` — a client together with the calls made on it and their answers
* `Platform.Program`, `Platform.Program.Performs` — what a program does with a client

## Main results

* `Platform.Program.Performs.bind` — the transcript of a program is put together from those of its
  parts
-/

namespace PlatformProxy

namespace Platform

/-- A program that works with any client. -/
abbrev Program (α : Type) : Type 1 := ∀ (σ : Type) [Client σ], StateM σ α

namespace Call

/-- What a call returns. -/
abbrev Answer : Call → Type
  | start => Except StartError Unit
  | stop | releaseEntries _ | releasePage _ => Unit
  | findBoard _ | downloadRange _ _ _ | downloadUsers _ _ | requestPage _ => CallRef
  | entryCount _ => Int32
  | entry _ _ => Option Entry
  | item _ _ => Option Item
  | preview _ _ => Option String
  | personaName _ => String
  | collect => List (CallRef × Completion)

/-- The program that makes one call. -/
def make : (call : Call) → Program call.Answer
  | start => fun _ _ => Client.start
  | stop => fun _ _ => Client.stop
  | findBoard name => fun _ _ => Client.findBoard name
  | entryCount board => fun _ _ => Client.entryCount board
  | downloadRange board first last => fun _ _ => Client.downloadRange board first last
  | downloadUsers board users => fun _ _ => Client.downloadUsers board users
  | entry entries index => fun _ _ => Client.entry entries index
  | releaseEntries entries => fun _ _ => Client.releaseEntries entries
  | requestPage request => fun _ _ => Client.requestPage request
  | item page index => fun _ _ => Client.item page index
  | preview page index => fun _ _ => Client.preview page index
  | releasePage page => fun _ _ => Client.releasePage page
  | personaName user => fun _ _ => Client.personaName user
  | collect => fun _ _ => Client.collect

end Call

/-- A call with its answer. -/
structure Answered where
  call : Call
  answer : call.Answer

/-- A client together with the calls made on it and their answers, in order. -/
structure Transcript (σ : Type) where
  client : σ
  calls : List Answered

namespace Transcript

variable {σ : Type} [Client σ]

/-- Pass a call on and write down what came back. -/
def note (call : Call) : StateM (Transcript σ) call.Answer := fun t =>
  let (answer, client) := (call.make σ).run t.client
  (answer, ⟨client, t.calls ++ [⟨call, answer⟩]⟩)

end Transcript

instance {σ : Type} [Client σ] : Client (Transcript σ) where
  start := Transcript.note .start
  stop := Transcript.note .stop
  findBoard name := Transcript.note (.findBoard name)
  entryCount board := Transcript.note (.entryCount board)
  downloadRange board first last := Transcript.note (.downloadRange board first last)
  downloadUsers board users := Transcript.note (.downloadUsers board users)
  entry entries index := Transcript.note (.entry entries index)
  releaseEntries entries := Transcript.note (.releaseEntries entries)
  requestPage request := Transcript.note (.requestPage request)
  item page index := Transcript.note (.item page index)
  preview page index := Transcript.note (.preview page index)
  releasePage page := Transcript.note (.releasePage page)
  personaName user := Transcript.note (.personaName user)
  collect := Transcript.note .collect

namespace Program

variable {σ α β : Type} [Client σ]

/-- The calls that a program makes on a client, with their answers. -/
def transcript (p : Program α) (c : σ) : List Answered := ((p (Transcript σ)).run ⟨c, []⟩).2.calls

/-- On a client `c` the program makes these calls and gets these answers, comes to the result `a`,
and leaves the client as `c'`. -/
structure Performs (p : Program α) (c : σ) (calls : List Answered) (a : α) (c' : σ) : Prop where
  run : (p σ).run c = (a, c')
  note : ∀ before, (p (Transcript σ)).run ⟨c, before⟩ = (a, ⟨c', before ++ calls⟩)

namespace Performs

variable {p : Program α} {c c' c'' : σ} {calls calls' : List Answered} {a : α} {b : β}

theorem transcript_eq (h : p.Performs c calls a c') : p.transcript c = calls := by
  rw [transcript, h.note]
  rfl

theorem pure (a : α) (c : σ) : Performs (fun _ _ => Pure.pure a) c [] a c :=
  ⟨rfl, fun before => by rw [List.append_nil]; rfl⟩

/-- **First the calls of one part, then those of the other.** -/
theorem bind {f : α → Program β} (hp : p.Performs c calls a c')
    (hf : (f a).Performs c' calls' b c'') :
    Performs (fun σ _ => p σ >>= fun a => f a σ) c (calls ++ calls') b c'' := by
  refine ⟨?_, fun before => ?_⟩
  · rw [Transition.run_bind, hp.run]
    exact hf.run
  · rw [Transition.run_bind, hp.note]
    exact (hf.note _).trans (by rw [List.append_assoc])

variable {P : Prop} [Decidable P] {q : Program α}

theorem ite_pos (h : P) (hp : p.Performs c calls a c') :
    Performs (fun σ _ => if P then p σ else q σ) c calls a c' := by
  simpa only [if_pos h] using hp

theorem ite_neg (h : ¬ P) (hq : q.Performs c calls a c') :
    Performs (fun σ _ => if P then p σ else q σ) c calls a c' := by
  simpa only [if_neg h] using hq

/-- The client may answer a call in any way. -/
theorem make (call : Call) (c : σ) :
    ∃ answer c', call.make.Performs c [⟨call, answer⟩] answer c' := by
  refine ⟨_, _, rfl, fun before => ?_⟩
  cases call <;> rfl

end Performs

end Program

end Platform

end PlatformProxy

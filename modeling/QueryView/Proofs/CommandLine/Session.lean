/-
The program step by step, and what comes of it.

The two ways to tell what the program does agree (`perform_eq_run`).  All that is set of the
surface is in its state in the end (`foldl_chosenSettings`), so the frame that its screen has
kept is the one that `frameOf` describes, and nothing was written before it.
-/
import QueryView.CommandLine.Session
import QueryView.Proofs.Surface.Deferred

namespace QueryView
namespace CommandLine

open Surface
open Terminal (Screen)

variable (s : Settings) (o : Options) (onTerminal : Bool) (t : Text)

/-! ## The state of the surface -/

/-- The state that asks for the frame. -/
def chosenState : State where
  text := Text.dropFinalNewlines t
  language := chosenLanguage o
  plainTextColor := s.plainTextColor
  theme := chosenTheme s o
  layout := outputLayout s onTerminal

theorem foldl_chosenSettings :
    (chosenSettings s o onTerminal t).foldl Setting.apply (State.initial (chosenTheme s o)) =
      chosenState s o onTerminal t := by
  cases hcolor : s.plainTextColor <;> simp only [chosenSettings, chosenState, hcolor] <;> rfl

theorem frame_displaying :
    (displaying (startScreen s o onTerminal) (chosenState s o onTerminal t)).frame =
      frameOf s o onTerminal t := rfl

/-! ## The session -/

theorem putLineEnd_of_unlimited {screen : Screen} (h : screen.Unlimited) :
    putLineEnd screen = (screen.having ['\n'], .ok ()) := by
  rw [putLineEnd, Terminal.Sink.write_of_unlimited h.limit]
  rfl

/-- Nothing fails, and the frame is written with a line end after it. -/
theorem exists_runInTurn_session (depth : Nat) :
    ∃ w, Operation.runInTurn (depth + 1) (session s o onTerminal t)
        (World.initial (chosenTheme s o)) = (.ok (.ok ()), w) ∧
      writtenIn w = Text.utf8 (frameOf s o onTerminal t ++ ['\n']) := by
  have hdeferred : (startScreen s o onTerminal).autoPresent = false := rfl
  obtain ⟨w₁, hcreate, hfirst⟩ :=
    World.Displays.first (chosenTheme s o) ({} : Buffer) hdeferred depth
  obtain ⟨w₂, hset, hdisplays⟩ :=
    hfirst.settings hdeferred depth (chosenSettings s o onTerminal t)
  rw [foldl_chosenSettings] at hdisplays
  obtain ⟨surface, hsurface, -, hscreen⟩ := hdisplays.live
  have hunlimited : surface.rendered.Unlimited := by
    rw [hscreen]
    exact ⟨rfl, rfl⟩
  have hpresented := congrArg Prod.swap (Terminal.Screen.present_of_unlimited hunlimited)
  obtain ⟨w₃, hpresent, hhandles, hshown⟩ := World.run_renderLayer hsurface hdisplays.handles
    (fun screen => screen.present.swap) hpresented depth
  obtain ⟨w₄, hend, hhandles', hended⟩ := World.run_renderLayer hshown
    (hhandles ▸ hdisplays.handles) putLineEnd
    (putLineEnd_of_unlimited ⟨hunlimited.limit, hunlimited.flush⟩) depth
  obtain ⟨w₅, hdispose, hdisposed⟩ :=
    World.run_dispose hended (hhandles' ▸ hhandles ▸ hdisplays.handles) depth
  refine ⟨w₅, ?_, ?_⟩
  · rw [session, Operation.runInTurn_cons hcreate nofun, Operation.runInTurn_append hset,
      Operation.runInTurn_cons hpresent nofun, Operation.runInTurn_cons hend nofun,
      Operation.runInTurn_cons hdispose nofun]
    rfl
  · rw [writtenIn, hdisposed, Text.utf8_append, ← frame_displaying, hscreen]
    rfl

/-! ## The program -/

/-- Step by step the program has the outcome that `run` says, and it never breaks off. -/
theorem perform_eq_run (around : Surroundings) (args : List Text) :
    perform around args = .ok (run around args).performance := by
  rw [perform, run]
  cases information? args with
  | some information => rfl
  | none =>
    cases hread : Options.read args with
    | error failure =>
      simp only [show?, hread]
      rfl
    | ok o =>
      cases hinput : inputText around o with
      | error failure =>
        simp only [show?, hread, hinput]
        rfl
      | ok t =>
        obtain ⟨w, hsession, hwritten⟩ := exists_runInTurn_session
          (Settings.load around.settingsFile) o around.onTerminal t 0
        simp only [show?, hread, hinput, performSession, hsession, hwritten]
        rfl

end CommandLine
end QueryView

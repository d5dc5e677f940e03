import SrxNote.Srx.Proofs.ConfigLines

/-!
# The settings after a restart

Every part of the written configuration has an effect on the settings of the router
that executes it, line by line; a line that no template matches is passed over. Put
together, the effects say which settings such a restart keeps and which it loses
(`reload_eq`, `reload_restores_iff`).
-/

namespace SrxNote.Srx
open SrxNote.Bgpsec SrxNote.Crypto SrxNote.Text
open ConfigLine

/-! ### Effects -/

/-- Read without a connection to the server, the lines change the settings by `f`. -/
def LinesEffect (cs : List ConfigLine) (f : SrxSettings → SrxSettings) : Prop :=
  ∀ (env : VtyEnv) (r : SrxRouter), env.online = false → r.connected = false →
    (runAll env r cs).bgp = f r.bgp ∧ (runAll env r cs).connected = false

namespace LinesEffect

theorem nil : LinesEffect [] id :=
  fun _ _ _ hr => ⟨rfl, hr⟩

theorem append {cs ds : List ConfigLine} {f g : SrxSettings → SrxSettings} (hf : LinesEffect cs f)
    (hg : LinesEffect ds g) : LinesEffect (cs ++ ds) fun bgp => g (f bgp) := by
  intro env r henv hr
  obtain ⟨hbgp, hconn⟩ := hf env r henv hr
  obtain ⟨hbgp', hconn'⟩ := hg env _ henv hconn
  have hsplit : runAll env r (cs ++ ds) = runAll env (runAll env r cs) ds := List.foldl_append
  rw [hsplit]
  exact ⟨by rw [hbgp', hbgp], hconn'⟩

theorem cons {c : ConfigLine} {cs : List ConfigLine} {f g : SrxSettings → SrxSettings}
    (hf : LinesEffect [c] f) (hg : LinesEffect cs g) : LinesEffect (c :: cs) fun bgp => g (f bgp) :=
  hf.append hg

theorem comment (l : List Char) : LinesEffect [.comment l] id :=
  fun _ _ _ hr => ⟨rfl, hr⟩

theorem command {ss : List String} {ws : List (List Char)} {f : SrxSettings → SrxSettings}
    {run : VtyEnv → SrxRouter → CmdResult × SrxRouter}
    (h : lookupCommand (commandWords ss ws) = some run)
    (hrun : ∀ env r, env.online = false → r.connected = false →
      (run env r).2.bgp = f r.bgp ∧ (run env r).2.connected = false) :
    LinesEffect [.command ss ws] f := by
  intro env r henv hr
  simp only [runAll, List.foldl_cons, List.foldl_nil, ConfigLine.run, h]
  exact hrun env r henv hr

/-- A command whose handler changes the settings by `f`, whatever they are. -/
theorem changed {ss : List String} {ws : List (List Char)} {f : SrxSettings → SrxSettings}
    (h : lookupCommand (commandWords ss ws) = some fun _ r => r.changed f) :
    LinesEffect [.command ss ws] f :=
  command h fun _ _ _ hr => ⟨rfl, hr⟩

end LinesEffect

/-! ### Proxy id, server and keep window -/

end SrxNote.Srx

import Cimi.Program
import Mathlib

/-!
# Which setting counts

A setting is given by the command line, by a variable of the environment or by the file, and the
first of these that gives it counts (`Config.FollowsPrecedence`).  One variable gives host and port
at once, around its last colon (`Config.Bound`); if its port is none, its host still counts.  So a
text of a host and a port is where the pages are served, however many colons the host has
(`Config.FollowsPrecedence.bindAddress`).

The command that serves has options of its own for host and port.  They are no settings, and are put
before them where the pages are served (`Program.servedAt`).
-/

namespace Cimi

open CommandLine (Invocation)

variable {c file : Config} {env : String → Option String} {n : Nat}

namespace Config

theorem port?_toString (h : n ≤ maxPort) : port? (toString n) = some n := by
  unfold port?
  rw [Text.Decimal.toList_toString]
  split
  · -- No number begins with a plus sign.
    next hplus =>
      have hdigit := Text.Decimal.isDigit_of_mem_digits (hplus ▸ List.mem_cons_self)
      cases hdigit
  · simp [Text.Decimal.value?_digits, h]

/-- The settings of a file, which has to be there if it was named. -/
def ofNamed : (named : Option String) → FileContent → Except ConfigError Config
  | some path, .missing => .error (.missing path)
  | _, content => ofFile content

theorem load_eq (named : Option String) (content : FileContent) (env : String → Option String) :
    load named content env = (ofNamed named content).map (·.withEnvironment env) := by
  rcases named with _ | path
  · rfl
  · cases content <;> rfl

/-- The host and the port that the environment gives at once, if it gives them. -/
inductive Bound (env : String → Option String) : Option (String × String) → Prop
  | cut {host port : String} (h : env "CIMI_BROWSER_BIND" = some (host ++ ":" ++ port))
    (hport : ':' ∉ port.toList) : Bound env (some (host, port))
  | none (h : ∀ text, env "CIMI_BROWSER_BIND" = some text → ':' ∉ text.toList) : Bound env none

/-- The settings are those of the file, but for what the environment gives, and those of the
environment, but for what the command line gives. -/
structure FollowsPrecedence (i : Invocation) (env : String → Option String)
    (bound : Option (String × String)) (file c : Config) : Prop where
  baseUrl : c.baseUrl = (i.baseUrl.or (env "CIMI_BASE_URL")).getD file.baseUrl
  logFilter : c.logFilter = ((if i.verbose then some verboseFilter else none).or
    ((env "RUST_LOG").or (env "CIMI_BROWSER_LOG"))).getD file.logFilter
  host : c.host = ((bound.map Prod.fst).or (env "CIMI_BROWSER_HOST")).getD file.host
  port : c.port = ((bound.bind fun b => port? b.2).or
    ((env "CIMI_BROWSER_PORT").bind port?)).getD file.port
  timeout : c.timeout = file.timeout
  userAgent : c.userAgent = file.userAgent

theorem withEnvironment_eq (env : String → Option String) (file : Config) :
    ∃ bound, Bound env bound ∧ file.withEnvironment env =
      { file with
        host := ((bound.map Prod.fst).or (env "CIMI_BROWSER_HOST")).getD file.host
        port := ((bound.bind fun b => port? b.2).or
          ((env "CIMI_BROWSER_PORT").bind port?)).getD file.port
        baseUrl := (env "CIMI_BASE_URL").getD file.baseUrl
        logFilter := ((env "RUST_LOG").or (env "CIMI_BROWSER_LOG")).getD file.logFilter } := by
  rcases henv : env "CIMI_BROWSER_BIND" with _ | text
  · refine ⟨none, .none fun text htext => ?_, ?_⟩
    · rw [henv] at htext
      cases htext
    · simp [withEnvironment, henv]
  rcases hcut : Text.cutLast ':' text.toList with _ | ⟨host, port⟩
  · have hcolon := Text.cutLast_eq_none.1 hcut
    refine ⟨none, .none fun text' htext => ?_, ?_⟩
    · rwa [← Option.some.inj (henv.symm.trans htext)]
    · simp [withEnvironment, henv, bindTo, hcut]
  · obtain ⟨htext, hport⟩ := Text.cutLast_eq_some hcut
    have hjoin : text = String.ofList host ++ ":" ++ String.ofList port := by
      simp [← String.toList_inj, htext]
    refine ⟨some (String.ofList host, String.ofList port), .cut (hjoin ▸ henv) ?_, ?_⟩
    · rwa [String.toList_ofList]
    · -- A port that is none leaves the one before it.
      cases hnumber : port? (String.ofList port) <;>
        simp [withEnvironment, henv, bindTo, hcut, hnumber]

theorem Bound.eq_some {bound : Option (String × String)} {host port : String}
    (h : Bound env bound) (henv : env "CIMI_BROWSER_BIND" = some (host ++ ":" ++ port))
    (hport : ':' ∉ port.toList) : bound = some (host, port) := by
  have toList_join : ∀ a b : String, (a ++ ":" ++ b).toList = a.toList ++ ':' :: b.toList := by
    simp
  cases h with
  | @cut host' port' henv' hport' =>
    have hjoin := congrArg String.toList (Option.some.inj (henv'.symm.trans henv))
    rw [toList_join, toList_join] at hjoin
    -- Both are what stands around the last colon of one text.
    have hcut := Text.cutLast_append hport' host'.toList
    rw [hjoin, Text.cutLast_append hport] at hcut
    obtain ⟨hhost, hport⟩ := Prod.mk.inj (Option.some.inj hcut)
    rw [String.toList_inj.1 hhost, String.toList_inj.1 hport]
  | none hcolon =>
    refine absurd ?_ (hcolon _ henv)
    simp [toList_join]

theorem notMem_toString (n : Nat) : ':' ∉ (toString n).toList := by
  intro h
  rw [Text.Decimal.toList_toString] at h
  cases Text.Decimal.isDigit_of_mem_digits h

/-- A text that gives host and port at once is where the pages are served. -/
theorem FollowsPrecedence.bindAddress {i : Invocation} {bound : Option (String × String)}
    {host : String} (h : FollowsPrecedence i env bound file c) (hbound : Bound env bound)
    (hn : n ≤ maxPort) (henv : env "CIMI_BROWSER_BIND" = some s!"{host}:{n}") :
    c.bindAddress = s!"{host}:{n}" := by
  have hsome : bound = some (host, toString n) :=
    hbound.eq_some henv (notMem_toString n)
  have hhost : c.host = host := by simpa [hsome] using h.host
  have hport : c.port = n := by
    rw [h.port, hsome, Option.bind_some, port?_toString hn]
    rfl
  rw [Config.bindAddress, hhost, hport]

theorem followsPrecedence (i : Invocation) (env : String → Option String) (file : Config) :
    ∃ bound, Bound env bound ∧
      FollowsPrecedence i env bound file ((file.withEnvironment env).withInvocation i) := by
  obtain ⟨bound, hbound, henv⟩ := withEnvironment_eq env file
  refine ⟨bound, hbound, ?_⟩
  rw [henv]
  refine ⟨?_, ?_, rfl, rfl, rfl, rfl⟩
  · cases hurl : i.baseUrl <;> simp [withInvocation, hurl]
  · cases hverbose : i.verbose <;> simp [withInvocation, hverbose]

end Config

/-- Whatever the command line, the file and the environment are, there are settings just if there
are those of the file, and each of them is the one that comes first. -/
theorem settings_precedence (i : Invocation) (content : FileContent)
    (env : String → Option String) :
    (∀ e, Config.ofNamed i.config content = .error e →
      Program.settings i content env = .error (Report.ofConfigError e)) ∧
    ∀ file, Config.ofNamed i.config content = .ok file →
      ∃ c bound, Program.settings i content env = .ok c ∧ Config.Bound env bound ∧
        Config.FollowsPrecedence i env bound file c ∧
        ∀ (host : String) (n : Nat), n ≤ Config.maxPort →
          env "CIMI_BROWSER_BIND" = some s!"{host}:{n}" → c.bindAddress = s!"{host}:{n}" := by
  refine ⟨fun e he => ?_, fun file hfile => ?_⟩
  · simp [Program.settings, Config.load_eq, he, Except.map, Except.mapError]
  · obtain ⟨bound, hbound, hc⟩ := Config.followsPrecedence i env file
    refine ⟨_, bound, ?_, hbound, hc, fun host n hn henv => hc.bindAddress hbound hn henv⟩
    simp [Program.settings, Config.load_eq, hfile, Except.map, Except.mapError]

/-- The variables of an environment that gives host and port twice. -/
def crossed (name : String) : Option String :=
  [("CIMI_BROWSER_BIND", "::1:8081"), ("CIMI_BROWSER_HOST", "other"), ("CIMI_BROWSER_PORT", "9"),
    ("CIMI_BASE_URL", "http://env/cimi/"), ("RUST_LOG", "trace")].lookup name

theorem settings_precedence_crossed :
    (∃ e, Program.settings ⟨.filter "a=1", true, none, some "gone.toml"⟩ .missing crossed =
      .error e) ∧
    ∃ c, Program.settings ⟨.filter "a=1", true, none, none⟩
        (.text "[server]\nhost = 'file'\n[http]\ntimeout_secs = 5\n") crossed = .ok c ∧
      c.bindAddress = "::1:8081" ∧ c.baseUrl = "http://env/cimi/" ∧
      c.logFilter = Config.verboseFilter ∧ c.timeout = 5 := by
  obtain ⟨hmissing, -⟩ := settings_precedence ⟨.filter "a=1", true, none, some "gone.toml"⟩
    .missing crossed
  obtain ⟨-, hfile⟩ := settings_precedence ⟨.filter "a=1", true, none, none⟩
    (.text "[server]\nhost = 'file'\n[http]\ntimeout_secs = 5\n") crossed
  obtain ⟨c, bound, hc, hbound, hprecedence, haddress⟩ :=
    hfile { Config.default with host := "file", timeout := 5 } (by cbv)
  exact ⟨⟨_, hmissing _ rfl⟩, c, hc, haddress "::1" 8081 (by decide) rfl, hprecedence.baseUrl,
    hprecedence.logFilter, hprecedence.timeout⟩

end Cimi

import Attached.Library.Shell
import Attached.Ssh.ExportLemmas

/-!
This module contains the safety of the generated OpenSSH configuration: whatever the paths are, it has
the lines it is meant to have, and OpenSSH and the shell read the paths back out of their quotes.
-/

namespace Attached

namespace OpenSsh

def unquote (text : List Char) : Option (List Char) :=
  match text with
  | '"' :: text => go text
  | _ => none
where
  go (text : List Char) : Option (List Char) :=
    match text with
    | [] => none
    | ['"'] => some []
    | '\\' :: '"' :: text => (go text).map ('"' :: ·)
    | '\\' :: '\\' :: text => (go text).map ('\\' :: ·)
    | '"' :: _ => none
    | c :: text => (go text).map (c :: ·)

/--
Whether OpenSSH expands anything in the name of a file: a tilde in front, tokens, environment variables
or patterns.
-/
def expands (name : List Char) : Bool :=
  name.head? == some '~' || name.any fun c => ['%', '$', '*', '?', '['].contains c

theorem unquote_go {name : List Char} (h : ∀ c ∈ name, c ≠ '"' ∧ c ≠ '\\')
    : unquote.go (name ++ ['"']) = some name := by
  induction name with
  | nil => rfl
  | cons c name ih =>
    rcases h c List.mem_cons_self with ⟨hquote, hbackslash⟩
    rw [List.cons_append, unquote.go, ih fun d hd => h d (List.mem_cons_of_mem _ hd)]
    . rfl
    . exact fun h _ => absurd h hquote
    . exact fun _ h _ => absurd h hbackslash
    . exact fun _ h _ => absurd h hbackslash
    . exact fun h => absurd h hquote

end OpenSsh

namespace Broker

def keyword (name : String) : String :=
  "    " ++ name ++ " "

def directiveLine (directive : String × String) : String :=
  keyword directive.1 ++ directive.2

def fixedDirectives : List (String × String) :=
  [
    ("GlobalKnownHostsFile", "/dev/null"),
    ("StrictHostKeyChecking", "yes"),
    ("CheckHostIP", "no"),
    ("BatchMode", "yes"),
    ("IdentitiesOnly", "yes"),
    ("IdentityAgent", "none"),
    ("PasswordAuthentication", "no"),
    ("KbdInteractiveAuthentication", "no"),
    ("PreferredAuthentications", "publickey"),
    ("ForwardAgent", "no"),
    ("ClearAllForwardings", "yes"),
    ("RequestTTY", "no"),
    ("ControlMaster", "no"),
    ("ControlPath", "none"),
    ("ConnectTimeout", "20"),
    ("ServerAliveInterval", "30"),
    ("ServerAliveCountMax", "3")
  ]

def directives (broker : Broker) (proxyCommand identity knownHosts : String) : List (String × String) :=
  [
    ("HostName", broker.hostAlias),
    ("CanonicalizeHostname", "no"),
    ("User", broker.username),
    ("HostKeyAlias", broker.hostAlias),
    ("ProxyCommand", proxyCommand),
    ("IdentityFile", identity),
    ("UserKnownHostsFile", knownHosts)
  ] ++ fixedDirectives

def unlines (lines : List String) : String :=
  match lines with
  | [] => ""
  | line :: lines => line ++ ("\n" ++ unlines lines)

theorem unlines_fixedDirectives
    : "\n" ++ unlines (fixedDirectives.map directiveLine)
        =
      "\n    GlobalKnownHostsFile /dev/null\n    StrictHostKeyChecking yes\n    CheckHostIP no\n    BatchMode yes\n    IdentitiesOnly yes\n    IdentityAgent none\n    PasswordAuthentication no\n    KbdInteractiveAuthentication no\n    PreferredAuthentications publickey\n    ForwardAgent no\n    ClearAllForwardings yes\n    RequestTTY no\n    ControlMaster no\n    ControlPath none\n    ConnectTimeout 20\n    ServerAliveInterval 30\n    ServerAliveCountMax 3\n" := by
  decide +kernel

theorem settings_eq_unlines {broker : Broker} {executable settings : String}
    (h : broker.settings executable = .ok settings)
    : ∃ proxyCommand proxy identity knownHosts,
        shellWord executable = .ok proxyCommand
          ∧ shellWord (join broker.runtime "proxy") = .ok proxy
          ∧ configPath (join broker.runtime "identity") = .ok identity
          ∧ configPath (join broker.runtime "known_hosts") = .ok knownHosts
          ∧ settings = unlines ((broker.directives
              (proxyCommand ++ " __ssh-local-proxy " ++ proxy) identity knownHosts).map directiveLine) := by
  unfold Broker.settings at h
  simp only [Except.bind_eq_ok_iff, Except.pure_eq_ok_iff] at h
  rcases h with ⟨proxyCommand, hcommand, proxy, hproxy, identity, hidentity, knownHosts, hknown, rfl⟩
  refine ⟨proxyCommand, proxy, identity, knownHosts, hcommand, hproxy, hidentity, hknown, ?_⟩
  have hhostName : "    HostName " = keyword "HostName" := by decide +kernel
  have huser : "\n    CanonicalizeHostname no\n    User "
      = "\n" ++ (keyword "CanonicalizeHostname" ++ ("no" ++ ("\n" ++ keyword "User"))) := by
    decide +kernel
  have halias : "\n    HostKeyAlias " = "\n" ++ keyword "HostKeyAlias" := by decide +kernel
  have hproxyCommand : "\n    ProxyCommand " = "\n" ++ keyword "ProxyCommand" := by decide +kernel
  have hidentityFile : "\n    IdentityFile " = "\n" ++ keyword "IdentityFile" := by decide +kernel
  have hknownHosts : "\n    UserKnownHostsFile " = "\n" ++ keyword "UserKnownHostsFile" := by
    decide +kernel
  rw [hhostName, huser, halias, hproxyCommand, hidentityFile, hknownHosts, ← unlines_fixedDirectives]
  simp only [directives, List.map_cons, List.cons_append, List.nil_append, unlines, directiveLine,
    String.append_assoc]

def OneLine (text : String) : Prop :=
  '\n' ∉ text.toList

instance (text : String) : Decidable (OneLine text) :=
  inferInstanceAs (Decidable ('\n' ∉ text.toList))

theorem OneLine.append {a b : String} (ha : OneLine a) (hb : OneLine b) : OneLine (a ++ b) := by
  unfold OneLine
  rw [String.toList_append, List.mem_append, not_or]
  exact ⟨ha, hb⟩

theorem OneLine.directiveLine {directive : String × String} (hname : OneLine directive.1)
    (hvalue : OneLine directive.2) : OneLine (directiveLine directive) := by
  have hindent : OneLine "    " := by decide
  have hspace : OneLine " " := by decide
  exact ((hindent.append hname).append hspace).append hvalue

theorem splitOn_unlines {lines : List String} (h : ∀ line ∈ lines, OneLine line)
    : (unlines lines).toList.splitOn '\n' = lines.map String.toList ++ [[]] := by
  induction lines with
  | nil => rfl
  | cons line lines ih =>
    have htext : (unlines (line :: lines)).toList = line.toList ++ '\n' :: (unlines lines).toList := by
      simp [unlines]
    rw [htext, List.splitOn_append_cons_self_of_not_mem (h line List.mem_cons_self),
      ih fun line hline => h line (List.mem_cons_of_mem _ hline)]
    rfl

theorem oneLine_of_not_isControl {text : String} (h : ∀ c ∈ text.toList, isControl c = false)
    : OneLine text := by
  intro hmem
  have hnewline := h _ hmem
  revert hnewline
  decide

theorem quoteChar_eq
    : (fun c : Char => if c.toNat = 0x27 then "'\\''".toList else [c]) = Shell.quoteChar := by
  funext c
  have hquote : c.toNat = 0x27 ↔ c = '\'' := by
    constructor
    . intro h
      exact Char.toNat_inj.mp h
    . rintro rfl
      rfl
  unfold Shell.quoteChar
  simp only [hquote]
  split
  . decide
  . rfl

theorem shellWord_eq_ok {path word : String} (h : shellWord path = .ok word)
    : word.toList = Shell.quote path.toList ∧ OneLine word ∧ '%' ∉ word.toList := by
  unfold shellWord at h
  split at h
  . cases h
  . next hsafe =>
    simp only [Bool.not_eq_true, List.any_eq_false, Bool.or_eq_false_iff] at hsafe
    simp only [Except.ok.injEq] at h
    have hquote : word.toList = Shell.quote path.toList := by
      rw [← h, quoteChar_eq]
      simp [Shell.quote]
    refine ⟨hquote, ?_, ?_⟩
    . apply oneLine_of_not_isControl
      intro c hmem
      rw [hquote] at hmem
      rcases Shell.mem_quote hmem with hmem | rfl | rfl
      . exact (hsafe c hmem).1
      . decide
      . decide
    . intro hmem
      rw [hquote] at hmem
      rcases Shell.mem_quote hmem with hmem | hquote | hbackslash
      . have hpercent := (hsafe _ hmem).2
        revert hpercent
        decide
      . revert hquote
        decide
      . revert hbackslash
        decide

theorem configPath_eq_ok {path word : String} (h : configPath path = .ok word)
    : word = "\"" ++ path ++ "\"" ∧ OneLine word
      ∧ ∀ c ∈ path.toList, c ∉ "\"%$`\\*?[".toList := by
  unfold configPath at h
  split at h
  . cases h
  . next hsafe =>
    simp only [Bool.not_eq_true, List.any_eq_false, Bool.or_eq_false_iff] at hsafe
    simp only [Except.ok.injEq] at h
    have hpath : OneLine path := oneLine_of_not_isControl fun c hmem => (hsafe c hmem).1
    have hquote : OneLine "\"" := by decide
    refine ⟨h.symm, ?_, ?_⟩
    . rw [← h]
      exact (hquote.append hpath).append hquote
    intro c hmem hspecial
    have hsafe := (hsafe c hmem).2
    rw [List.contains_iff_mem.mpr hspecial] at hsafe
    cases hsafe

def ownConfiguration (broker : Broker) (executable : String) : Except RunEnd String := do
  return hostLine broker.hostAlias ++ (← broker.settings executable)

def IsStableAlias (text : String) : Prop :=
  ∃ id : List Char, text.toList = "attached-".toList ++ id ∧ id.length = 64
    ∧ ∀ c ∈ id, c ∈ "0123456789abcdef".toList

def IsUsername (text : String) : Prop :=
  text.toList ≠ [] ∧ ∀ c ∈ text.toList, c.isAlphanum = true ∨ c ∈ "_.-".toList

theorem IsStableAlias.oneLine {text : String} (h : IsStableAlias text) : OneLine text := by
  rcases h with ⟨id, htext, _, hid⟩
  unfold OneLine
  rw [htext, List.mem_append, not_or]
  constructor
  . decide
  . intro hmem
    have hdigit := hid _ hmem
    revert hdigit
    decide

theorem IsUsername.oneLine {text : String} (h : IsUsername text) : OneLine text := by
  intro hmem
  have hchar := h.2 _ hmem
  revert hchar
  decide

theorem oneLine_directives {broker : Broker} {proxyCommand identity knownHosts : String}
    (halias : OneLine broker.hostAlias) (husername : OneLine broker.username)
    (hcommand : OneLine proxyCommand) (hidentity : OneLine identity) (hknown : OneLine knownHosts)
    : ∀ directive ∈ broker.directives proxyCommand identity knownHosts,
        OneLine directive.1 ∧ OneLine directive.2 := by
  have hfixed : ∀ directive ∈ fixedDirectives, OneLine directive.1 ∧ OneLine directive.2 := by
    decide +kernel
  intro directive hmem
  rcases List.mem_append.mp hmem with hmem | hmem
  . simp only [List.mem_cons, List.not_mem_nil, or_false] at hmem
    rcases hmem with rfl | rfl | rfl | rfl | rfl | rfl | rfl
    . exact ⟨(by decide : OneLine "HostName"), halias⟩
    . exact ⟨by decide +kernel, by decide +kernel⟩
    . exact ⟨(by decide : OneLine "User"), husername⟩
    . exact ⟨(by decide : OneLine "HostKeyAlias"), halias⟩
    . exact ⟨(by decide : OneLine "ProxyCommand"), hcommand⟩
    . exact ⟨(by decide : OneLine "IdentityFile"), hidentity⟩
    . exact ⟨(by decide : OneLine "UserKnownHostsFile"), hknown⟩
  . exact hfixed directive hmem

theorem unquote_configPath {path word : String} (h : configPath path = .ok word)
    : OpenSsh.unquote word.toList = some path.toList := by
  rcases configPath_eq_ok h with ⟨rfl, _, hsafe⟩
  have hword : ("\"" ++ path ++ "\"").toList = '"' :: (path.toList ++ ['"']) := by
    simp
  rw [hword, OpenSsh.unquote, OpenSsh.unquote_go]
  intro c hmem
  have hspecial := hsafe c hmem
  constructor
  . rintro rfl
    exact hspecial (by decide)
  . rintro rfl
    exact hspecial (by decide)

theorem expands_configPath {path word : String} (h : configPath path = .ok word)
    : OpenSsh.expands path.toList = true ↔ path.toList.head? = some '~' := by
  rcases configPath_eq_ok h with ⟨_, _, hsafe⟩
  have hnone : (path.toList.any fun c => ['%', '$', '*', '?', '['].contains c) = false := by
    apply List.any_eq_false.mpr
    intro c hmem hspecial
    apply hsafe c hmem
    have hsubset : ∀ c ∈ ['%', '$', '*', '?', '['], c ∈ "\"%$`\\*?[".toList := by
      simp
    exact hsubset c (List.contains_iff_mem.mp hspecial)
  unfold OpenSsh.expands
  rw [hnone, Bool.or_false, beq_iff_eq]

theorem head?_join {directory name : String} (h : name.toList.head? ≠ some '~')
    : (join directory name).toList.head? = some '~' ↔ directory.toList.head? = some '~' := by
  unfold join
  cases hdirectory : directory.toList with
  | nil => simpa [hdirectory] using h
  | cons first rest => split <;> simp [hdirectory]

end Broker

theorem configuration_not_injectable {broker : Broker} {executable output : String}
    (halias : Broker.IsStableAlias broker.hostAlias) (husername : Broker.IsUsername broker.username)
    (h : broker.ownConfiguration executable = .ok output)
    : ∃ proxyCommand identity knownHosts : String,
        output.toList.splitOn '\n'
            = ("Host " ++ broker.hostAlias).toList
              :: ((broker.directives proxyCommand identity knownHosts).map fun directive =>
                  ("    " ++ directive.1 ++ " " ++ directive.2).toList) ++ [[]]
          ∧ Shell.words proxyCommand.toList
            = some [executable.toList, "__ssh-local-proxy".toList,
                (Broker.join broker.runtime "proxy").toList]
          ∧ '%' ∉ proxyCommand.toList
          ∧ OpenSsh.unquote identity.toList = some (Broker.join broker.runtime "identity").toList
          ∧ OpenSsh.unquote knownHosts.toList = some (Broker.join broker.runtime "known_hosts").toList
          ∧ (OpenSsh.expands (Broker.join broker.runtime "identity").toList = true
              ↔ broker.runtime.toList.head? = some '~')
          ∧ (OpenSsh.expands (Broker.join broker.runtime "known_hosts").toList = true
              ↔ broker.runtime.toList.head? = some '~')
          ∧ ∃ rest, output = "Host " ++ broker.hostAlias ++ "\n" ++ rest
            ∧ ∀ aliases,
                broker.configuration (.ok executable) aliases
                  = .ok ("Host " ++ aliases ++ "\n" ++ rest) := by
  unfold Broker.ownConfiguration at h
  simp only [Except.bind_eq_ok_iff, Except.pure_eq_ok_iff] at h
  rcases h with ⟨settings, hsettings, rfl⟩
  rcases Broker.settings_eq_unlines hsettings with
    ⟨executableWord, proxy, identity, knownHosts, hcommand, hproxy, hidentity, hknown, hlines⟩
  rcases Broker.shellWord_eq_ok hcommand with ⟨hcommandQuote, hcommandLine, hcommandPercent⟩
  rcases Broker.shellWord_eq_ok hproxy with ⟨hproxyQuote, hproxyLine, hproxyPercent⟩
  refine ⟨executableWord ++ " __ssh-local-proxy " ++ proxy, identity, knownHosts, ?_, ?_, ?_,
    Broker.unquote_configPath hidentity, Broker.unquote_configPath hknown, ?_, ?_, settings, rfl, ?_⟩
  . have hfirst : (Broker.hostLine broker.hostAlias ++ settings).toList
        = ("Host " ++ broker.hostAlias).toList ++ '\n' :: settings.toList := by
      simp [Broker.hostLine]
    have hhost : Broker.OneLine ("Host " ++ broker.hostAlias) :=
      Broker.OneLine.append (by decide) halias.oneLine
    have hcommandOneLine : Broker.OneLine (executableWord ++ " __ssh-local-proxy " ++ proxy) :=
      (hcommandLine.append (by decide)).append hproxyLine
    have hdirectives := Broker.oneLine_directives halias.oneLine husername.oneLine hcommandOneLine
      (Broker.configPath_eq_ok hidentity).2.1 (Broker.configPath_eq_ok hknown).2.1
    rw [hfirst, List.splitOn_append_cons_self_of_not_mem hhost, hlines, Broker.splitOn_unlines,
      List.map_map]
    . rfl
    . intro line hline
      rcases List.mem_map.mp hline with ⟨directive, hmem, rfl⟩
      exact Broker.OneLine.directiveLine (hdirectives directive hmem).1 (hdirectives directive hmem).2
  . have htext : (executableWord ++ " __ssh-local-proxy " ++ proxy).toList
        = Shell.quote executable.toList ++ ' ' :: ("__ssh-local-proxy".toList
          ++ ' ' :: Shell.quote (Broker.join broker.runtime "proxy").toList) := by
      simp [hcommandQuote, hproxyQuote]
    rw [htext]
    apply Shell.words_quote
    . decide
    . decide
  . rw [String.toList_append, String.toList_append, List.mem_append, List.mem_append, not_or, not_or]
    exact ⟨⟨hcommandPercent, by decide⟩, hproxyPercent⟩
  . rw [Broker.expands_configPath hidentity]
    exact Broker.head?_join (by decide)
  . rw [Broker.expands_configPath hknown]
    exact Broker.head?_join (by decide)
  . intro aliases
    exact Broker.configuration_eq_ok_iff.mpr ⟨executable, settings, rfl, hsettings, rfl⟩

namespace Fixture

def tildeBroker : Broker :=
  { hostBroker with runtime := "~" }

end Fixture

theorem isStableAlias_exporterHost : Broker.IsStableAlias Fixture.hostBroker.hostAlias := by
  refine ⟨Fixture.exporterHost.toList, ?_, ?_, ?_⟩
  . simp [Fixture.hostBroker, attachedTarget]
  . simp [Fixture.exporterHost]
  . simp [Fixture.exporterHost]

theorem isUsername_account : Broker.IsUsername Fixture.hostBroker.username := by
  simp [Broker.IsUsername, Fixture.hostBroker]

theorem configuration_not_injectable_office
    : ∃ output, Fixture.hostBroker.ownConfiguration "/opt/attached's app" = .ok output
      ∧ (output.toList.splitOn '\n').length = 26 := by
  cases h : Fixture.hostBroker.ownConfiguration "/opt/attached's app" with
  | error e =>
    have hok : (Fixture.hostBroker.ownConfiguration "/opt/attached's app").isOk = true := by
      decide +kernel
    rw [h] at hok
    cases hok
  | ok output =>
    rcases configuration_not_injectable isStableAlias_exporterHost isUsername_account h with
      ⟨_, _, _, hlines, _⟩
    exact ⟨output, rfl, by rw [hlines]; simp [Broker.directives, Broker.fixedDirectives]⟩

/-- A tilde in front of the runtime directory is neither rejected nor quoted away. -/
theorem configuration_tilde_expanded
    : Broker.IsStableAlias Fixture.tildeBroker.hostAlias
      ∧ Broker.IsUsername Fixture.tildeBroker.username
      ∧ (Fixture.tildeBroker.ownConfiguration "/usr/bin/attached").isOk = true
      ∧ OpenSsh.expands (Broker.join Fixture.tildeBroker.runtime "identity").toList = true := by
  refine ⟨isStableAlias_exporterHost, isUsername_account, ?_, ?_⟩
  . decide +kernel
  . decide

end Attached

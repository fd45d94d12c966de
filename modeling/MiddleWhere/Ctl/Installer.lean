import MiddleWhere.Lang.PowerShell
import MiddleWhere.Lang.Shell
import MiddleWhere.Lang.Systemd
import MiddleWhere.Lang.Xml

/-!
# Service artifacts

The installer renders units, scripts and instructions from a service name, the path of the daemon
and the state directory. A template is fixed text with holes, and a hole for a path says how the
artifact's consumer reads what is put there.
-/

namespace MiddleWhere.Installer

structure InstallParams where
  serviceName : String
  execPath : String
  stateDir : String

def adminGroup : String := "middlewhere-admins"

/-- How the consumer of an artifact reads a path in it. -/
inductive Use
  | execPath
  | execArg
  | readWritePath
  | shellWord
  /-- The text of an element, in which this follows the path. -/
  | elementText (suffix : String)
  /-- A single-quoted string. -/
  | literal

inductive Piece
  | fixed (text : String)
  | lines (ls : List String)
  | svc
  | exe (use : Use)
  | state (use : Use)
  /-- The state directory, mentioned in a comment. -/
  | remark

def Piece.render (p : InstallParams) : Piece → List Char
  | .fixed text => text.toList
  | .lines ls => ls.flatMap fun l => l.toList ++ ['\n']
  | .svc => p.serviceName.toList
  | .exe _ => p.execPath.toList
  | .state _ | .remark => p.stateDir.toList

def render (p : InstallParams) (pieces : List Piece) : List Char := pieces.flatMap (Piece.render p)

/-- The consumer finds the path at this place, and goes on right after it. -/
def Use.Reads (path after : List Char) : Use → Prop
  | .execPath => Systemd.execPath (path ++ after) = some (path, after)
  | .execArg => Systemd.execArg (path ++ after) = some (path, after)
  | .readWritePath => Systemd.readWritePath (path ++ after) = some (path, after)
  | .shellWord => Shell.word (path ++ after) = some (path, after)
  | .elementText suffix => ∃ rest, after = suffix.toList ++ rest ∧
      Xml.elementText (path ++ after) = some (path ++ suffix.toList, rest)
  | .literal => PowerShell.literalText (path ++ after) = some (path, after)

/-- Every path of the artifact is read back where it was put. -/
def Preserved (p : InstallParams) : List Piece → Prop
  | [] => True
  | .exe use :: rest => use.Reads p.execPath.toList (render p rest) ∧ Preserved p rest
  | .state use :: rest => use.Reads p.stateDir.toList (render p rest) ∧ Preserved p rest
  | .fixed _ :: rest | .lines _ :: rest | .svc :: rest | .remark :: rest => Preserved p rest

/-! ## The templates -/

def sandbox : List String := [
    "UMask=0077",
    "",
    "# --- sandbox ---",
    "NoNewPrivileges=true",
    "ProtectSystem=strict",
    "ProtectHome=true",
    "PrivateTmp=true",
    "PrivateDevices=true",
    "ProtectClock=true",
    "ProtectHostname=true",
    "ProtectKernelTunables=true",
    "ProtectKernelModules=true",
    "ProtectKernelLogs=true",
    "ProtectControlGroups=true",
    "RestrictNamespaces=true",
    "RestrictRealtime=true",
    "RestrictSUIDSGID=true",
    "LockPersonality=true",
    "MemoryDenyWriteExecute=true",
    "RestrictAddressFamilies=AF_INET AF_INET6 AF_UNIX",
    "SystemCallArchitectures=native",
    "SystemCallFilter=@system-service",
    "SystemCallFilter=~@privileged @resources",
    "CapabilityBoundingSet=",
    "AmbientCapabilities=",
    "",
    "[Install]",
    "WantedBy=multi-user.target"]

def systemdUnit : List Piece := [
  .fixed "[Unit]\n",
  .fixed "Description=middleWHERE secure SQL gateway daemon (",
  .svc,
  .fixed ")\n",
  .lines [
    "After=network-online.target",
    "Wants=network-online.target",
    "",
    "[Service]",
    "Type=simple"],
  .fixed "ExecStart=",
  .exe .execPath,
  .fixed " run --state-dir ",
  .state .execArg,
  .fixed " --file-keystore\n",
  .lines [
    "Restart=on-failure",
    "RestartSec=5",
    "",
    "# --- dedicated unprivileged identity (the core of the trust model) ---",
    "DynamicUser=yes"],
  .fixed "StateDirectory=",
  .svc,
  .fixed "\n",
  .lines [
    "StateDirectoryMode=0700",
    "# Runtime dir for the group-reachable control socket; the admins group is a",
    "# supplementary group so the (dynamic) service can chgrp the socket to it.",
    "RuntimeDirectory=middlewhere",
    "RuntimeDirectoryMode=0710"],
  .fixed "SupplementaryGroups=",
  .fixed adminGroup,
  .fixed "\n",
  .lines sandbox]

def systemdUnitFixedUser : List Piece := [
  .fixed "[Unit]\n",
  .fixed "Description=middleWHERE secure SQL gateway daemon (",
  .svc,
  .fixed ")\n",
  .lines [
    "After=network-online.target",
    "Wants=network-online.target",
    "",
    "[Service]",
    "Type=simple"],
  .fixed "ExecStart=",
  .exe .execPath,
  .fixed " run --state-dir ",
  .state .execArg,
  .fixed " --file-keystore\n",
  .lines [
    "Restart=on-failure",
    "RestartSec=5",
    "",
    "# --- dedicated unprivileged identity (created by the installer/wizard) ---"],
  .fixed "User=",
  .svc,
  .fixed "\n",
  .fixed "Group=",
  .svc,
  .fixed "\n",
  .fixed "ReadWritePaths=",
  .state .readWritePath,
  .fixed "\n",
  .lines [
    "# Runtime dir for the group-reachable control socket; the admins group is a",
    "# supplementary group so the service can chgrp the socket to it.",
    "RuntimeDirectory=middlewhere",
    "RuntimeDirectoryMode=0710"],
  .fixed "SupplementaryGroups=",
  .fixed adminGroup,
  .fixed "\n",
  .lines sandbox]

def linuxOperatorStepsFixedUser : List Piece := [
  .fixed "# Linux (systemd) — run as root:\n",
  .fixed "sudo groupadd --system ",
  .fixed adminGroup,
  .fixed " 2>/dev/null || true\n",
  .fixed "sudo useradd --system --no-create-home --shell /usr/sbin/nologin ",
  .svc,
  .fixed " 2>/dev/null || true\n",
  .fixed "sudo ",
  .exe .shellWord,
  .fixed " --state-dir ",
  .state .shellWord,
  .fixed " --file-keystore init   # if not yet initialized\n",
  .fixed "sudo chown -R ",
  .svc,
  .fixed ":",
  .svc,
  .fixed " ",
  .state .shellWord,
  .fixed "\n",
  .fixed "sudo install -m0644 ",
  .svc,
  .fixed ".service /etc/systemd/system/",
  .svc,
  .fixed ".service\n",
  .fixed "sudo systemctl daemon-reload\n",
  .fixed "sudo systemctl enable --now ",
  .svc,
  .fixed "\n",
  .fixed "sudo usermod -aG ",
  .fixed adminGroup,
  .fixed " $(whoami)   # your login user; re-login to apply\n",
  .fixed "journalctl -u ",
  .svc,
  .fixed " -f\n"]

def launchdPlist : List Piece := [
  .lines [
    "<?xml version=\"1.0\" encoding=\"UTF-8\"?>",
    "<!DOCTYPE plist PUBLIC \"-//Apple//DTD PLIST 1.0//EN\" \"http://www.apple.com/DTDs/PropertyList-1.0.dtd\">",
    "<plist version=\"1.0\">",
    "<dict>",
    "    <key>Label</key>"],
  .fixed "    <string>com.middlewhere.",
  .svc,
  .fixed "</string>\n",
  .lines [
    "    <key>UserName</key>",
    "    <string>_middlewhere</string>",
    "    <key>ProgramArguments</key>",
    "    <array>"],
  .fixed "        <string>",
  .exe (.elementText ""),
  .fixed "</string>\n",
  .lines [
    "        <string>run</string>",
    "        <string>--state-dir</string>"],
  .fixed "        <string>",
  .state (.elementText ""),
  .fixed "</string>\n",
  .lines [
    "        <string>--file-keystore</string>",
    "    </array>",
    "    <key>RunAtLoad</key>",
    "    <true/>",
    "    <key>KeepAlive</key>",
    "    <true/>",
    "    <key>ProcessType</key>",
    "    <string>Background</string>",
    "    <key>StandardErrorPath</key>"],
  .fixed "    <string>",
  .state (.elementText "/stderr.log"),
  .fixed "/stderr.log</string>\n",
  .fixed "    <key>StandardOutPath</key>\n",
  .fixed "    <string>",
  .state (.elementText "/stdout.log"),
  .fixed "/stdout.log</string>\n",
  .lines [
    "</dict>",
    "</plist>"]]

def windowsInstallPs1 : List Piece := [
  .fixed "# Run elevated (Administrator). Installs the ",
  .svc,
  .fixed " Windows service.\n",
  .lines [
    "$ErrorActionPreference = 'Stop'",
    ""],
  .fixed "$svc   = '",
  .svc,
  .fixed "'\n",
  .fixed "$exe   = '",
  .exe .literal,
  .fixed "'\n",
  .fixed "$state = '",
  .state .literal,
  .fixed "'\n",
  .lines [
    "$acct  = \"NT SERVICE\\$svc\"",
    "",
    "New-Item -ItemType Directory -Force -Path $state | Out-Null",
    "",
    "# Admin group whose members drive the control pipe without elevation. The",
    "# daemon builds the pipe DACL granting this group at startup."],
  .fixed "New-LocalGroup -Name '",
  .fixed adminGroup,
  .fixed "' -Description 'middleWHERE admins' -ErrorAction SilentlyContinue | Out-Null\n",
  .fixed "Add-LocalGroupMember -Group '",
  .fixed adminGroup,
  .fixed "' -Member $env:USERNAME -ErrorAction SilentlyContinue\n",
  .lines [
    "",
    "# Create the service bound to a virtual service account.",
    "sc.exe create $svc binPath= \"`\"$exe`\" service --state-dir `\"$state`\" --file-keystore\" obj= $acct start= auto",
    "sc.exe description $svc \"middleWHERE secure SQL gateway daemon\"",
    "sc.exe failure $svc reset= 86400 actions= restart/5000/restart/5000/restart/5000",
    "",
    "# Lock the state dir: only the service account and Administrators. The",
    "# AI/client user is a different principal and is denied by omission.",
    "icacls $state /inheritance:r | Out-Null",
    "icacls $state /grant:r \"$\x7bacct\x7d:(OI)(CI)F\" | Out-Null",
    "icacls $state /grant:r \"BUILTIN\\Administrators:(OI)(CI)F\" | Out-Null",
    "",
    "Write-Host \"Installed. Start with:  sc.exe start $svc\"",
    "Write-Host \"First run 'mwsqlctl --state-dir `\"$state`\" --file-keystore init' AS the service\"",
    "Write-Host \"account context, or pre-seed the sealed config, before starting.\""]]

def linuxOperatorSteps : List Piece := [
  .fixed "# Linux (systemd) — run as root:\n",
  .fixed "sudo groupadd --system ",
  .fixed adminGroup,
  .fixed " 2>/dev/null || true\n",
  .fixed "sudo install -m0644 mwsqld.service /etc/systemd/system/",
  .svc,
  .fixed ".service\n",
  .lines [
    "sudo systemctl daemon-reload",
    "# Initialize the sealed config AS the service identity. With DynamicUser the",
    "# StateDirectory is created on first start; seed config beforehand by running",
    "# init under a one-shot with the same DynamicUser, or start once (it will warn"],
  .fixed "# 'no envs') then use mwsqlctl against ",
  .remark,
  .fixed " as root:\n",
  .fixed "sudo systemctl start ",
  .svc,
  .fixed "\n",
  .fixed "sudo ",
  .exe .shellWord,
  .fixed " --state-dir ",
  .state .shellWord,
  .fixed " --file-keystore  init   # if not yet initialized\n",
  .fixed "sudo systemctl enable --now ",
  .svc,
  .fixed "\n",
  .fixed "sudo usermod -aG ",
  .fixed adminGroup,
  .fixed " $(whoami)   # your login user; re-login to apply\n",
  .fixed "journalctl -u ",
  .svc,
  .fixed " -f\n"]

def macosAccountSteps : List Piece := [
  .lines [
    "# macOS — run as root. Create the dedicated daemon user (one time):",
    "MAXID=$(dscl . -list /Users UniqueID | awk '\x7bprint $2\x7d' | sort -n | tail -1)",
    "NEWID=$((MAXID+1))",
    "sudo dscl . -create /Users/_middlewhere",
    "sudo dscl . -create /Users/_middlewhere UserShell /usr/bin/false",
    "sudo dscl . -create /Users/_middlewhere RealName \"middleWHERE daemon\"",
    "sudo dscl . -create /Users/_middlewhere UniqueID $NEWID",
    "sudo dscl . -create /Users/_middlewhere PrimaryGroupID 1",
    "sudo dscl . -create /Users/_middlewhere NFSHomeDirectory /var/empty",
    "# Admin group whose members reach the control socket without sudo (one time):",
    "GMAXID=$(dscl . -list /Groups PrimaryGroupID | awk '\x7bprint $2\x7d' | sort -n | tail -1)",
    "GNEWID=$((GMAXID+1))"],
  .fixed "sudo dscl . -create /Groups/",
  .fixed adminGroup,
  .fixed "\n",
  .fixed "sudo dscl . -create /Groups/",
  .fixed adminGroup,
  .fixed " PrimaryGroupID $GNEWID\n",
  .fixed "sudo dscl . -append /Groups/",
  .fixed adminGroup,
  .fixed " GroupMembership $(whoami)   # re-login to apply\n",
  .fixed "sudo mkdir -p ",
  .state .shellWord,
  .fixed "\n",
  .fixed "sudo chown -R _middlewhere ",
  .state .shellWord,
  .fixed "\n",
  .fixed "sudo chmod 700 ",
  .state .shellWord,
  .fixed "\n",
  .lines [
    "# Runtime dir for the control socket (launchd has no RuntimeDirectory):",
    "sudo mkdir -p /var/run/middlewhere"],
  .fixed "sudo chown _middlewhere:",
  .fixed adminGroup,
  .fixed " /var/run/middlewhere\n",
  .fixed "sudo chmod 0710 /var/run/middlewhere\n",
  .fixed "sudo install -m0644 com.middlewhere.",
  .svc,
  .fixed ".plist /Library/LaunchDaemons/com.middlewhere.",
  .svc,
  .fixed ".plist\n",
  .fixed "sudo launchctl load -w /Library/LaunchDaemons/com.middlewhere.",
  .svc,
  .fixed ".plist\n"]

/-- What is generated. -/
def artifacts : List (List Piece) :=
  [systemdUnit, systemdUnitFixedUser, linuxOperatorStepsFixedUser, launchdPlist, windowsInstallPs1,
    linuxOperatorSteps, macosAccountSteps]

end MiddleWhere.Installer

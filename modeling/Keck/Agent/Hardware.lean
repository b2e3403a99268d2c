import Keck.Lib.Json
import Keck.Agent.Environment
import Keck.Agent.GpuLabels
import Keck.Agent.Sources
/-!
# Discovering the power sources

`keck-agent/src/hardware`: what `discover_sources` makes of a machine, and what
each source reads later. A machine is what the agent can ask: its environment,
its files and the servers it talks to. RAPL is an energy counter for each
socket, hwmon has power and energy sensors of any chip, the DCGM exporter has a
line for each GPU, and a BMC is probed over Redfish for the best it has for
each component.
-/
namespace Keck.Agent

open Keck.Lib Keck.Lib.Text

/-! ## A machine -/

/-- What is at a path; a directory has no text to read. -/
inductive File where
  | missing
  | unreadable (e : String)
  | text (s : String)

def File.present : File → Bool
  | .missing => false
  | _ => true

def File.read : File → Except String String
  | .missing => .error "No such file or directory (os error 2)"
  | .unreadable e => .error e
  | .text s => .ok s

def trimmed (s : String) : String := String.ofList (trim s.toList)

/-- A directory, with the names in it in the order they are listed. -/
inductive Directory where
  | missing
  | unreadable (e : String)
  | listed (names : List String)

/-- How a request authenticates. -/
inductive Credentials where
  | none
  | bearer (token : String)
  | basic (username password : String)

structure Status where
  code : Nat
  reason : String

def Status.isSuccess (s : Status) : Bool := decide (200 ≤ s.code ∧ s.code < 300)

def Status.asStr (s : Status) : String := toString s.code ++ " " ++ s.reason

/-- An answer, with what reading its body as text or as JSON gives. -/
structure Response where
  status : Status
  text : Except String String := .error "no text"
  json : Except String Json := .error "no JSON"

structure Machine where
  env : String → Option String
  files : String → File
  powercap : Directory
  hwmon : Directory
  get : Credentials → String → Except String Response

def join (path name : String) : String := path ++ "/" ++ name

def sysfsRoot (m : Machine) : String := if (m.files "/host/sys/class").present then "/host/sys" else "/sys"

def procfsRoot (m : Machine) : String := if (m.files "/host/proc/1").present then "/host/proc" else "/proc"

inductive SourceError where
  | unavailable (msg : String)
  | read (e : String)
  | parse (msg : String)

def SourceError.asStr : SourceError → String
  | .unavailable msg => "source unavailable: " ++ msg
  | .read e => "read error: " ++ e
  | .parse msg => "parse error: " ++ msg

/-- Why `parse::<u64>` refuses a text. -/
def parseIntError (s : List Char) : String :=
  let digits := if s.head? = some '+' then s.tail else s
  if s.isEmpty then "cannot parse integer from empty string"
  else if digits.isEmpty || !digits.all Char.isDigit then "invalid digit found in string"
  else "number too large to fit in target type"

def readU64File (m : Machine) (path : String) : Except SourceError Nat :=
  match (m.files path).read with
  | .error e => .error (.read e)
  | .ok content =>
    match parseUnsigned 64 (trim content.toList) with
    | some n => .ok n
    | none => .error (.parse (path ++ ": " ++ parseIntError (trim content.toList)))

/-! ## RAPL -/

structure RaplSource where
  id : String
  name : String
  path : String
  component : Component
  socket : Nat
  maxEnergyUj : Nat

def RaplSource.new (m : Machine) (domain : String) (socket : Nat) (path : String) (component : Component) :
    RaplSource where
  id := "rapl:" ++ domain ++ ":" ++ toString socket
  name := "RAPL " ++ domain ++ " (socket " ++ toString socket ++ "): " ++
    ((m.files (join path "name")).read.toOption.map trimmed).getD domain
  path := path
  component := component
  socket := socket
  maxEnergyUj := (readU64File m (join path "max_energy_range_uj")).toOption.getD 0

def RaplSource.read (m : Machine) (s : RaplSource) : Except SourceError PowerReading :=
  match readU64File m (join s.path "energy_uj") with
  | .error e => .error e
  | .ok energyUj => .ok { readingType := .estimated, energyUj := some energyUj, maxEnergyUj := s.maxEnergyUj }

def powercapPath (m : Machine) : String := sysfsRoot m ++ "/class/powercap"

/-- The socket in the name of a zone, for names of so many parts. -/
def socketOf (parts : Nat) (name : String) : Option Nat :=
  if "intel-rapl:".toList.isPrefixOf name.toList ∧ (name.toList.splitOn ':').length = parts then
    parseUnsigned 8 ((name.toList.splitOn ':').getD 1 [])
  else none

/-- The package domain of a socket. -/
def packageOf (m : Machine) (name : String) : Option RaplSource :=
  (socketOf 2 name).bind fun socket =>
    let path := join (powercapPath m) name
    if (m.files (join path "energy_uj")).present then some (.new m "package" socket path .cpu) else none

/-- The memory domain of a socket. -/
def dramOf (m : Machine) (name : String) : Option RaplSource :=
  (socketOf 3 name).bind fun socket =>
    let path := join (powercapPath m) name
    if (m.files (join path "name")).read.toOption.map trimmed = some "dram" ∧
      (m.files (join path "energy_uj")).present then some (.new m "dram" socket path .memory) else none

def sortBySocket (sources : List RaplSource) : List RaplSource := sources.insertionSort fun a b => a.socket ≤ b.socket

namespace Rapl

def discover (m : Machine) : Except SourceError (List RaplSource) :=
  match m.powercap with
  | .missing => .error (.unavailable "/sys/class/powercap not found (no RAPL support)")
  | .unreadable e => .error (.read e)
  | .listed names =>
    let sources := names.filterMap (packageOf m)
    if sources.isEmpty then .error (.unavailable "No RAPL package domains found") else .ok (sortBySocket sources)

def discoverDram (m : Machine) : Except SourceError (List RaplSource) :=
  match m.powercap with
  | .missing => .error (.unavailable "no powercap")
  | .unreadable e => .error (.read e)
  | .listed names =>
    let sources := names.filterMap (dramOf m)
    if sources.isEmpty then .error (.unavailable "No RAPL DRAM domains found") else .ok sources

end Rapl

/-! ## hwmon -/

inductive HwmonSensor where
  | power (path : String)
  | energy (path : String) (maxPath : Option String)

structure HwmonSource where
  id : String
  displayName : String
  component : Component
  sensor : HwmonSensor

def HwmonSource.read (m : Machine) (s : HwmonSource) : Except SourceError PowerReading :=
  match s.sensor with
  | .power path =>
    match readU64File m path with
    | .error e => .error e
    | .ok powerUw => .ok { readingType := .measured, powerUw := some powerUw }
  | .energy path maxPath =>
    match readU64File m path with
    | .error e => .error e
    | .ok energyUj =>
      let maxEnergy := (maxPath.bind fun p => (readU64File m p).toOption).getD 0
      .ok { readingType := .measured, energyUj := some energyUj, maxEnergyUj := maxEnergy }

/-- `to_lowercase`, as far as ASCII letters come of it: those of ASCII, the
Kelvin sign and the capital I with a dot. -/
def toLowercase (s : String) : List Char :=
  s.toList.flatMap fun c =>
    if c = Char.ofNat 0x212A then ['k'] else if c = Char.ofNat 0x130 then ['i', Char.ofNat 0x307] else [c.toLower]

def containsAny (s : List Char) (words : List String) : Bool := words.any fun w => decide (w.toList <:+: s)

def classifyComponent (chipName label : String) : Component :=
  let nameLower := toLowercase chipName
  let labelLower := toLowercase label
  if containsAny nameLower ["nvidia", "amdgpu", "radeon", "xe"] then .gpu
  else if containsAny nameLower ["mlx", "ice", "bnxt", "i40e"] || containsAny labelLower ["network", "nic"] then .nic
  else if containsAny nameLower ["nvme", "drivetemp"] || containsAny labelLower ["disk", "ssd"] then .storage
  else if containsAny labelLower ["cpu", "vcore", "package"] then .cpu
  else if containsAny labelLower ["dram", "dimm", "memory"] then .memory
  else .cpu

theorem containsAny_append (s : List Char) (ws vs : List String) :
    containsAny s (ws ++ vs) = (containsAny s ws || containsAny s vs) := List.any_append

/-- A sensor counts for the CPU unless something speaks against it: a word for a
GPU, a NIC or a disk, or one for the memory in a label that has none for the CPU. -/
theorem classifyComponent_eq_cpu_iff (chipName label : String) :
    classifyComponent chipName label = .cpu ↔
      containsAny (toLowercase chipName) (["nvidia", "amdgpu", "radeon", "xe"] ++ ["mlx", "ice", "bnxt", "i40e"] ++
        ["nvme", "drivetemp"]) = false ∧
      containsAny (toLowercase label) (["network", "nic"] ++ ["disk", "ssd"]) = false ∧
      (containsAny (toLowercase label) ["dram", "dimm", "memory"] = true →
        containsAny (toLowercase label) ["cpu", "vcore", "package"] = true) := by
  simp only [containsAny_append, classifyComponent, Bool.or_eq_true, Bool.or_eq_false_iff]
  split_ifs <;> grind

/-- The text of a file without the blanks around it, empty if there is none. -/
def textAt (m : Machine) (path : String) : String := ((m.files path).read.toOption.map trimmed).getD ""

def powerSensor (m : Machine) (hwmonPath hwmonName chipName : String) (n : Nat) : Option HwmonSource :=
  let sensor := "power" ++ toString n
  let powerPath := join hwmonPath (sensor ++ "_input")
  let text := textAt m (join hwmonPath (sensor ++ "_label"))
  if !(m.files powerPath).present then none
  -- disabled
  else if (m.files (join hwmonPath (sensor ++ "_enable"))).read.toOption.map trimmed = some "0" then none
  else some
    { id := "hwmon:" ++ hwmonName ++ ":" ++ sensor ++ ":" ++ chipName
      displayName := "hwmon " ++ chipName ++ " " ++ sensor ++ " (" ++
        (if text.isEmpty then "unlabeled" else text) ++ ")"
      component := classifyComponent chipName text
      sensor := .power powerPath }

def energySensor (m : Machine) (hwmonPath hwmonName chipName : String) (n : Nat) : Option HwmonSource :=
  let sensor := "energy" ++ toString n
  let energyPath := join hwmonPath (sensor ++ "_input")
  let text := textAt m (join hwmonPath (sensor ++ "_label"))
  let maxPath := join hwmonPath (sensor ++ "_max")
  if !(m.files energyPath).present then none
  else some
    { id := "hwmon:" ++ hwmonName ++ ":" ++ sensor ++ ":" ++ chipName
      displayName := "hwmon " ++ chipName ++ " " ++ sensor ++ " (" ++ text ++ ")"
      component := classifyComponent chipName text
      sensor := .energy energyPath (if (m.files maxPath).present then some maxPath else none) }

/-- The sensors of one chip. -/
def sensorsOf (m : Machine) (hwmonName : String) : List HwmonSource :=
  let hwmonPath := join (sysfsRoot m ++ "/class/hwmon") hwmonName
  let chipName := textAt m (join hwmonPath "name")
  (List.range' 1 16).filterMap (powerSensor m hwmonPath hwmonName chipName) ++
    (List.range' 1 16).filterMap (energySensor m hwmonPath hwmonName chipName)

def Hwmon.discover (m : Machine) : Except SourceError (List HwmonSource) :=
  match m.hwmon with
  | .missing => .error (.unavailable "no /sys/class/hwmon")
  | .unreadable e => .error (.read e)
  | .listed names =>
    let sources := names.flatMap (sensorsOf m)
    if sources.isEmpty then .error (.unavailable "No hwmon power sensors found") else .ok sources

/-! ## The DCGM exporter -/

structure DcgmGpuSource where
  id : String
  displayName : String
  deviceIndex : Nat
  dcgmUrl : String
  gpuUuid : String

def isPowerLine (line : List Char) : Bool := "DCGM_FI_DEV_POWER_USAGE\x7b".toList.isPrefixOf line

/-- The power a GPU has in the exporter's lines. -/
def gpuWatts (hostname gpuUuid : String) (body : List Char) : F64 :=
  (lines body).foldl (fun total line =>
    if !isPowerLine line then total
    else if !hostname.isEmpty && !containsAny line ["Hostname=\"" ++ hostname ++ "\""] then total
    else if !gpuUuid.isEmpty && !containsAny line [gpuUuid] then total
    else ((afterLast ' ' line).bind F64.parse).elim total total.add) 0

def hostname (m : Machine) : String := (m.env "NODE_NAME").getD ""

def DcgmGpuSource.read (m : Machine) (s : DcgmGpuSource) : Except SourceError PowerReading :=
  match m.get .none s.dcgmUrl with
  | .error e => .error (.unavailable ("DCGM request failed: " ++ e))
  | .ok resp =>
    match resp.text with
    | .error e => .error (.parse ("DCGM response read failed: " ++ e))
    | .ok body =>
      let totalWatts := gpuWatts (hostname m) s.gpuUuid body.toList
      if totalWatts = 0 then .error (.unavailable "No GPU power reading from DCGM")
      else .ok { readingType := .measured, powerUw := some ((totalWatts.scale 1000000).toUnsigned 64) }

/-- The exporter's pod on this node, asked for at the Kubernetes API. -/
def discoverDcgmUrl (m : Machine) : Option String := do
  let token ← (m.files "/var/run/secrets/kubernetes.io/serviceaccount/token").read.toOption
  let nodeName ← m.env "NODE_NAME"
  let resp ← (m.get (.bearer token) ("https://kubernetes.default.svc/api/v1/namespaces/nvidia-gpu-operator/pods" ++
    "?labelSelector=app=nvidia-dcgm-exporter&fieldSelector=spec.nodeName=" ++ nodeName)).toOption
  if !resp.status.isSuccess then none
  let body ← resp.json.toOption
  let items ← (body.get "items").bind Json.asArray
  let status ← items.head?.bind (Json.get "status")
  let podIp ← (status.get "podIP").bind Json.asStr
  return "http://" ++ podIp ++ ":9400/metrics"

/-- The exporter to read, `DCGM_EXPORTER_URL` unless that is a service. -/
def dcgmUrl (m : Machine) : Option String :=
  match m.env "DCGM_EXPORTER_URL" with
  | some url => if containsAny url.toList [".svc"] then some ((discoverDcgmUrl m).getD url) else some url
  | none => discoverDcgmUrl m

structure GpuScan where
  sources : List DcgmGpuSource := []
  seenUuids : List String := []

/-- What a line of the exporter adds to the GPUs found. -/
def scanGpu (hostname url : String) (scan : GpuScan) (line : List Char) : GpuScan :=
  if !isPowerLine line then scan
  else if !hostname.isEmpty && (extractLabel line "Hostname").any (· != hostname) then scan
  else
    let uuid := (extractLabel line "UUID").getD ""
    if uuid.isEmpty || scan.seenUuids.contains uuid then scan
    else
      let model := (extractLabel line "modelName").getD "NVIDIA GPU"
      let gpuIndex := ((extractLabel line "gpu").bind fun s => parseUnsigned 8 s.toList).getD
        (scan.sources.length % 2 ^ 8)
      { sources := scan.sources ++
          [{ id := "dcgm:gpu:" ++ toString gpuIndex
             displayName := "DCGM " ++ model ++ " (GPU " ++ toString gpuIndex ++ ")"
             deviceIndex := gpuIndex
             dcgmUrl := url
             gpuUuid := uuid }]
        seenUuids := uuid :: scan.seenUuids }

def Gpu.discover (m : Machine) : Except SourceError (List DcgmGpuSource) :=
  if !(m.files (procfsRoot m ++ "/driver/nvidia")).present then .error (.unavailable "No NVIDIA driver found")
  else
    match dcgmUrl m with
    | none => .error (.unavailable "DCGM exporter not found on this node.")
    | some url =>
      match m.get .none url with
      | .error e => .error (.unavailable ("DCGM connection failed: " ++ e))
      | .ok resp =>
        if !resp.status.isSuccess then .error (.unavailable ("DCGM returned " ++ resp.status.asStr))
        else
          match resp.text with
          | .error e => .error (.parse ("DCGM response failed: " ++ e))
          | .ok body =>
            let scan := (lines body.toList).foldl (scanGpu (hostname m) url) {}
            if scan.sources.isEmpty then
              .error (.unavailable "NVIDIA driver present but DCGM exporter not reachable. Set DCGM_EXPORTER_URL.")
            else .ok scan.sources

/-! ## Redfish -/

inductive ReadMethod where
  | sensorReading (path : String)
  | sensorPercentage (pctPath totalPath : String)
  | powerApi (path : String)
  | telemetryMetric (metricId : String)

/-- A BMC and how to log in to it. -/
structure Bmc where
  endpoint : String
  username : String
  password : String

structure RedfishSource where
  id : String
  displayName : String
  component : Component
  bmc : Bmc
  readMethod : ReadMethod

def asF64 : Json → Option ℚ
  | .num n => some n
  | _ => none

def Bmc.get (m : Machine) (bmc : Bmc) (url : String) : Except String Response :=
  m.get (.basic bmc.username bmc.password) url

def readJsonField (m : Machine) (bmc : Bmc) (url field : String) : Except SourceError ℚ :=
  match bmc.get m url with
  | .error e => .error (.unavailable ("Redfish: " ++ e))
  | .ok resp =>
    if !resp.status.isSuccess then .error (.unavailable ("HTTP " ++ resp.status.asStr))
    else
      match resp.json with
      | .error e => .error (.parse ("JSON: " ++ e))
      | .ok body =>
        match (body.get field).bind asF64 with
        | none => .error (.parse ("Field '" ++ field ++ "' not found"))
        | some value => .ok value

/-- The last value of the metric in a report. -/
def metricValue (metricId : String) (report : Json) : Option F64 :=
  (((report.get "MetricValues").bind Json.asArray).getD []).reverse.findSome? fun entry =>
    if (entry.get "MetricId").bind Json.asStr = some metricId then
      ((entry.get "MetricValue").bind Json.asStr).bind fun value => F64.parse value.toList
    else none

/-- The first of the reports that has the metric. -/
def searchReports (m : Machine) (bmc : Bmc) (metricId : String) : List Json → Except SourceError F64
  | [] => .error (.parse (metricId ++ " not found in MetricReports"))
  | member :: members =>
    match (member.get "@odata.id").bind Json.asStr with
    | none => .error (.parse "No @odata.id")
    | some reportPath =>
      match bmc.get m (bmc.endpoint ++ reportPath) with
      | .error e => .error (.unavailable ("Report: " ++ e))
      | .ok resp =>
        if !resp.status.isSuccess then searchReports m bmc metricId members
        else
          match resp.json with
          | .error e => .error (.parse ("Report JSON: " ++ e))
          | .ok report =>
            match metricValue metricId report with
            | some value => .ok value
            | none => searchReports m bmc metricId members

def readMetricFromReports (m : Machine) (bmc : Bmc) (metricId : String) : Except SourceError F64 :=
  match bmc.get m (bmc.endpoint ++ "/redfish/v1/TelemetryService/MetricReports") with
  | .error e => .error (.unavailable ("MetricReports: " ++ e))
  | .ok resp =>
    if !resp.status.isSuccess then .error (.unavailable ("MetricReports HTTP " ++ resp.status.asStr))
    else
      match resp.json with
      | .error e => .error (.parse ("MetricReports JSON: " ++ e))
      | .ok body =>
        match (body.get "Members").bind Json.asArray with
        | none => .error (.parse "No MetricReports Members")
        | some members => searchReports m bmc metricId members

def chassisPath : String := "/redfish/v1/Chassis/System.Embedded.1"

def sensorPath (name : String) : String := chassisPath ++ "/Sensors/" ++ name

/-- `PowerConsumedWatts`, whatever the status. -/
def readPowerApi (m : Machine) (bmc : Bmc) (path : String) : Except SourceError ℚ :=
  match bmc.get m (bmc.endpoint ++ path) with
  | .error e => .error (.unavailable ("Redfish: " ++ e))
  | .ok resp =>
    match resp.json with
    | .error e => .error (.parse ("JSON: " ++ e))
    | .ok body =>
      match ((((body.get "PowerControl").bind Json.asArray).bind List.head?).bind
          (Json.get "PowerConsumedWatts")).bind asF64 with
      | none => .error (.parse "PowerConsumedWatts not found")
      | some watts => .ok watts

def RedfishSource.watts (m : Machine) (s : RedfishSource) : Except SourceError F64 :=
  match s.readMethod with
  | .sensorReading path => (readJsonField m s.bmc (s.bmc.endpoint ++ path) "Reading").map .finite
  | .sensorPercentage pctPath totalPath =>
    (readJsonField m s.bmc (s.bmc.endpoint ++ pctPath) "Reading").bind fun pct =>
      (readJsonField m s.bmc (s.bmc.endpoint ++ totalPath) "Reading").map fun total => .finite (total * pct / 100)
  | .powerApi path => (readPowerApi m s.bmc path).map .finite
  | .telemetryMetric metricId =>
    match readMetricFromReports m s.bmc metricId with
    | .ok watts => .ok watts
    | .error _ => (readJsonField m s.bmc (s.bmc.endpoint ++ sensorPath metricId) "Reading").map .finite

def RedfishSource.read (m : Machine) (s : RedfishSource) : Except SourceError PowerReading :=
  match s.watts m with
  | .error e => .error e
  | .ok watts => .ok { readingType := .measured, powerUw := some ((watts.scale 1000000).toUnsigned 64) }

def probe (m : Machine) (bmc : Bmc) (url : String) : Bool :=
  match bmc.get m url with
  | .error _ => false
  | .ok resp => resp.status.isSuccess

def probeReading (m : Machine) (bmc : Bmc) (url : String) : Option ℚ := do
  let resp ← (bmc.get m url).toOption
  if !resp.status.isSuccess then none
  let body ← resp.json.toOption
  (body.get "Reading").bind asF64

/-- A source of the BMC; its id and its name end with the endpoint. -/
def Bmc.source (bmc : Bmc) (key display : String) (component : Component) (readMethod : ReadMethod) :
    RedfishSource where
  id := "redfish:" ++ key ++ ":" ++ bmc.endpoint
  displayName := display ++ " (" ++ bmc.endpoint ++ ")"
  component := component
  bmc := bmc
  readMethod := readMethod

def tryTelemetryMetric (m : Machine) (bmc : Bmc) (metricId : String) (component : Component) (display : String) :
    Option RedfishSource :=
  if !probe m bmc (bmc.endpoint ++ "/redfish/v1/TelemetryService/MetricDefinitions/" ++ metricId) then none
  else if (probeReading m bmc (bmc.endpoint ++ sensorPath metricId)).isSome then
    some (bmc.source metricId display component (.sensorReading (sensorPath metricId)))
  else if (readMetricFromReports m bmc metricId).isOk then
    some (bmc.source metricId display component (.telemetryMetric metricId))
  else none

def trySensorPct (m : Machine) (bmc : Bmc) (sensorName : String) (component : Component) (display : String) :
    Option RedfishSource := do
  let _ ← probeReading m bmc (bmc.endpoint ++ sensorPath sensorName)
  let _ ← probeReading m bmc (bmc.endpoint ++ sensorPath "SystemBoardPwrConsumption")
  return bmc.source sensorName display component
    (.sensorPercentage (sensorPath sensorName) (sensorPath "SystemBoardPwrConsumption"))

/-- One end of a power supply, if it has a sensor. -/
def psuSource (m : Machine) (bmc : Bmc) (psu : Json) (slot : Nat) (field sensor key display : String) :
    Option RedfishSource :=
  let path := sensorPath ("PSU.Slot." ++ toString slot ++ "_" ++ sensor)
  if ((psu.get field).bind asF64).isSome ∧ (probeReading m bmc (bmc.endpoint ++ path)).isSome then
    some (bmc.source ("psu" ++ toString slot ++ ":" ++ key)
      (((psu.get "Name").bind Json.asStr).getD "PSU" ++ " " ++ display) .platform (.sensorReading path))
  else none

def psuSources (m : Machine) (bmc : Bmc) (psu : Json) (i : Nat) : List RedfishSource :=
  (psuSource m bmc psu (i + 1) "PowerInputWatts" "InputPower" "input" "Input").toList ++
    (psuSource m bmc psu (i + 1) "PowerOutputWatts" "OutputPower" "output" "Output").toList

def discoverPsuDetail (m : Machine) (bmc : Bmc) (powerUrl : String) : Except SourceError (List RedfishSource) :=
  match bmc.get m powerUrl with
  | .error e => .error (.unavailable ("Redfish: " ++ e))
  | .ok resp =>
    match resp.json with
    | .error e => .error (.parse ("JSON: " ++ e))
    | .ok body =>
      .ok ((((body.get "PowerSupplies").bind Json.asArray).getD []).zipIdx.flatMap fun (psu, i) =>
        psuSources m bmc psu i)

/-- The BMC of this node, named outright or by the serial number. -/
def redfishEndpoint (m : Machine) : Except SourceError String :=
  (resolveEndpoint (m.env "REDFISH_ENDPOINT") (m.env "REDFISH_MAP")
    (m.files (sysfsRoot m ++ "/class/dmi/id/product_serial")).read.toOption).mapError .unavailable

def powerPath : String := chassisPath ++ "/Power"

/-- For each component the best the BMC has, then its power supplies. -/
def probeBmc (m : Machine) (bmc : Bmc) : List RedfishSource :=
  let cpuSource := (tryTelemetryMetric m bmc "TotalCPUPower" .cpu "Redfish Telemetry CPU").or
    ((trySensorPct m bmc "SystemBoardCPUUsage" .cpu "Redfish Sensor CPU").or
      (tryTelemetryMetric m bmc "CPUPower" .cpu "Redfish Telemetry CPUPower"))
  let memSource := (tryTelemetryMetric m bmc "TotalMemoryPower" .memory "Redfish Telemetry Memory").or
    ((tryTelemetryMetric m bmc "DRAMPwr" .memory "Redfish Telemetry DRAM").or
      (trySensorPct m bmc "SystemBoardMEMUsage" .memory "Redfish Sensor Memory"))
  let fanSource := tryTelemetryMetric m bmc "TotalFanPower" .fan "Redfish Telemetry Fans"
  let storageSource := tryTelemetryMetric m bmc "TotalStoragePower" .storage "Redfish Telemetry Storage"
  let ioSource := (trySensorPct m bmc "SystemBoardIOUsage" .nic "Redfish Sensor I/O").or
    (tryTelemetryMetric m bmc "TotalPciePower" .nic "Redfish Telemetry PCIe")
  let sysSource := trySensorPct m bmc "SystemBoardSYSUsage" .platform "Redfish Sensor Platform"
  cpuSource.toList ++ memSource.toList ++ fanSource.toList ++ storageSource.toList ++ ioSource.toList ++
    sysSource.toList ++ (discoverPsuDetail m bmc (bmc.endpoint ++ powerPath)).toOption.getD [] ++
    [bmc.source "platform" "Redfish PSU Total" .platform (.powerApi powerPath)]

def Platform.discover (m : Machine) : Except SourceError (List RedfishSource) :=
  (redfishEndpoint m).bind fun endpoint =>
    match m.env "REDFISH_USERNAME", m.env "REDFISH_PASSWORD" with
    | none, _ => .error (.unavailable "REDFISH_USERNAME not set")
    | some _, none => .error (.unavailable "REDFISH_PASSWORD not set")
    | some username, some password =>
      let bmc : Bmc := ⟨endpoint, username, password⟩
      if !probe m bmc (endpoint ++ powerPath) then .error (.unavailable "Redfish not reachable")
      else .ok (probeBmc m bmc)

/-! ## All sources -/

inductive PowerSource where
  | rapl (s : RaplSource)
  | hwmon (s : HwmonSource)
  | dcgm (s : DcgmGpuSource)
  | redfish (s : RedfishSource)

/-- The source as a tick reads it, on the machine as it is then. -/
def PowerSource.source (m : Machine) : PowerSource → Source
  | rapl s => ⟨s.id, s.name, s.component, .socket s.socket, .estimated, (s.read m).mapError SourceError.asStr⟩
  | hwmon s => ⟨s.id, s.displayName, s.component, .node, .measured, (s.read m).mapError SourceError.asStr⟩
  | dcgm s => ⟨s.id, s.displayName, .gpu, .device s.deviceIndex, .measured, (s.read m).mapError SourceError.asStr⟩
  | redfish s => ⟨s.id, s.displayName, s.component, .node, .measured, (s.read m).mapError SourceError.asStr⟩

def raplPackages (m : Machine) : List RaplSource := (Rapl.discover m).toOption.getD []

def raplDrams (m : Machine) : List RaplSource := (Rapl.discoverDram m).toOption.getD []

def hwmonSensors (m : Machine) : List HwmonSource := (Hwmon.discover m).toOption.getD []

def dcgmGpus (m : Machine) : List DcgmGpuSource := (Gpu.discover m).toOption.getD []

def redfishSources (m : Machine) : List RedfishSource := (Platform.discover m).toOption.getD []

/-- A part whose discovery fails has no sources. -/
def discoverSources (m : Machine) : List PowerSource :=
  (raplPackages m).map .rapl ++ (raplDrams m).map .rapl ++ (hwmonSensors m).map .hwmon ++ (dcgmGpus m).map .dcgm ++
    (redfishSources m).map .redfish

end Keck.Agent

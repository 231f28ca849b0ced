import TrafficGen.ForStd.TextSearch

/-!
# Configuration

`util/config/config_parser.cpp`: the configuration record, its defaults, its validation and its
parser. A text is a list of characters, and a position in it is the text from there on. The
parser looks for a quoted key anywhere in the text it is given and reads the value behind the
next colon. A depth is a `Nat` where the code counts it in an `int`: the two differ only in a text
with more open brackets than an `int` can count.
-/

namespace TrafficGen

namespace AppConfig

structure PortConfig where
  portId : UInt16
  nbRxQueues : UInt16
  nbTxQueues : UInt16
  nbRxDesc : UInt16
  nbTxDesc : UInt16
deriving DecidableEq, Repr

structure CoreMapping where
  coreId : UInt32
  portId : UInt16
  queueId : UInt16
  enableRx : Bool
deriving DecidableEq, Repr

structure GRPCConfig where
  listenAddress : String
  port : UInt16
deriving DecidableEq, Repr

end AppConfig

/-- Configuration structure. -/
structure AppConfig where
  hugepagePath : String
  numCores : UInt32
  ports : List AppConfig.PortConfig
  coreMappings : List AppConfig.CoreMapping
  grpcConfig : AppConfig.GRPCConfig
  mbufsPerSocket : UInt32
  mbufCacheSize : UInt32
  txBurstSize : UInt16
  rxBurstSize : UInt16
deriving DecidableEq, Repr

namespace ConfigParser

/-- Validate configuration. -/
def validateConfig (config : AppConfig) : Bool :=
  if config.numCores = 0 then false
  else if config.ports.isEmpty then false
  else if config.coreMappings.isEmpty then false
  else if config.ports.any fun port =>
      (port.nbRxQueues = 0 && port.nbTxQueues = 0) || (port.nbRxDesc = 0 || port.nbTxDesc = 0) then
    false
  else
    -- only the port of a mapping is checked, not its core
    config.coreMappings.all fun mapping =>
      config.ports.any fun port => port.portId = mapping.portId

/-- Get default configuration. -/
def getDefaultConfig : AppConfig where
  hugepagePath := "/mnt/huge"
  numCores := 2
  ports := [{ portId := 0, nbRxQueues := 1, nbTxQueues := 1, nbRxDesc := 1024, nbTxDesc := 1024 }]
  coreMappings := [{ coreId := 1, portId := 0, queueId := 0, enableRx := false }]
  grpcConfig := { listenAddress := "0.0.0.0", port := 50051 }
  mbufsPerSocket := 8192
  mbufCacheSize := 512
  txBurstSize := 32
  rxBurstSize := 32

/-! ## Raw values -/

/-- `std::isspace`, in the C locale. -/
def isSpace (c : Char) : Bool := c = ' ' || ('\t' ≤ c && c ≤ '\r')

/-- The text up to the first quote with no backslash before it, which closes a string. `prev` is
    the character in front of the text. -/
def closeQuote (prev : Char) : List Char → Option (List Char)
  | [] => none
  | c :: s => if c = '"' ∧ prev ≠ '\\' then some [c] else (closeQuote c s).map (c :: ·)

/-- The text up to the bracket that closes the `depth` ones that are open. -/
def closeBracket (opening closing : Char) (depth : Nat) : List Char → Option (List Char)
  | [] => none
  | c :: s =>
    if c = opening then (closeBracket opening closing (depth + 1) s).map (c :: ·)
    else if c = closing then
      if depth = 1 then some [c] else (closeBracket opening closing (depth - 1) s).map (c :: ·)
    else (closeBracket opening closing depth s).map (c :: ·)

/-- The value a text starts with, or nothing when it is not closed. -/
def rawValue (s : List Char) : List Char :=
  match s.dropWhile isSpace with
  | [] => []
  | c :: s =>
    if c = '"' then
      match closeQuote c s with
      | none => []
      | some body => c :: body
    else if c = '{' ∨ c = '[' then
      match closeBracket c (if c = '{' then '}' else ']') 1 s with
      | none => []
      | some body => c :: body
    else (c :: s).takeWhile fun c => c ≠ ',' && c ≠ '}' && c ≠ ']'

/-- A string as it stands in a text. -/
def quoted (s : String) : List Char := '"' :: (s.toList ++ ['"'])

/-- Find the value after a given key: behind the first colon that follows the first occurrence of
    the quoted key. -/
def findRawValue (json : List Char) (key : String) : List Char :=
  match List.search (quoted key) json with
  | none => []
  | some s =>
    match List.search [':'] s with
    | none => []
    | some s => rawValue s.tail

/-! ## Values

A value that cannot be read leaves the field it is for as it was. -/

/-- The text between the quotes of a string, escapes and all. -/
def parseString (json : List Char) (key : String) : Option String :=
  let raw := findRawValue json key
  if raw.head? ≠ some '"' ∨ raw.length < 2 then none
  else some (String.ofList (raw.tail.take (raw.length - 2)))

/-- `std::strtoull` in base 10: white space, a sign and digits. What follows is ignored, a value
    too large becomes the largest, and a negative one is negated in 64 bits. -/
def strtoull (s : List Char) : Option UInt64 :=
  let (negative, s) := match s.dropWhile isSpace with
    | '-' :: s => (true, s)
    | '+' :: s => (false, s)
    | s => (false, s)
  let digits := s.takeWhile Char.isDigit
  if digits = [] then none
  else
    let v := Nat.ofDigitChars 10 digits 0
    if UInt64.size ≤ v then some (UInt64.ofNat (UInt64.size - 1))
    else some (if negative then -UInt64.ofNat v else UInt64.ofNat v)

/-- A number, cut to the width of its field. -/
def parseUint {α : Type} (cut : UInt64 → α) (json : List Char) (key : String) : Option α :=
  let raw := findRawValue json key
  if raw = [] then none else (strtoull raw).map cut

def parseBool (json : List Char) (key : String) : Option Bool :=
  let raw := findRawValue json key
  if raw = [] then none
  else if (List.search "true".toList raw).isSome then some true
  else if (List.search "false".toList raw).isSome then some false
  else none

/-- The array of a given key, or nothing. -/
def extractArray (json : List Char) (key : String) : List Char :=
  let raw := findRawValue json key
  if raw.head? = some '[' then raw else []

/-- The objects of an array past its first `skip` characters, those of the object last taken. -/
def splitObjectsFrom : Nat → List Char → List (List Char)
  | _, [] => []
  | skip + 1, _ :: s => splitObjectsFrom skip s
  | 0, c :: s =>
    if c = '{' then
      match closeBracket '{' '}' 1 s with
      | none => []
      | some body => (c :: body) :: splitObjectsFrom body.length s
    else splitObjectsFrom 0 s

/-- The objects within an array. -/
def splitObjectsInArray (arrayStr : List Char) : List (List Char) := splitObjectsFrom 0 arrayStr

/-- The inner loop of `split_objects_in_array` over the text behind a brace: how many characters
    it passes, and the depth it leaves with. -/
def scanDepth : Nat → List Char → Nat × Nat
  | depth, [] => (0, depth)
  | depth, c :: s =>
    if c = '{' then ((scanDepth (depth + 1) s).1 + 1, (scanDepth (depth + 1) s).2)
    else if c = '}' then
      if depth - 1 = 0 then (0, 0)
      else ((scanDepth (depth - 1) s).1 + 1, (scanDepth (depth - 1) s).2)
    else ((scanDepth depth s).1 + 1, (scanDepth depth s).2)

/-- `split_objects_in_array` by positions, for at most `fuel` rounds of its outer loop. -/
def splitObjectsLoop (arrayStr : List Char) :
    Nat → Nat → List (List Char) → Option (List (List Char))
  | 0, _, _ => none
  | fuel + 1, pos, result =>
    match (arrayStr.drop pos).findIdx? (· = '{') with
    | none => some result                           -- no further object
    | some n =>
      let pos := pos + n
      let scan := scanDepth 1 (arrayStr.drop (pos + 1))
      let i := pos + 1 + scan.1
      if scan.2 ≠ 0 then some result                -- not closed
      else
        splitObjectsLoop arrayStr fuel (i + 1)
          (result ++ [(arrayStr.drop pos).take (i - pos + 1)])

/-! ## The configuration -/

/-- An entry of the ports array; what is missing is zero. -/
def parsePort (obj : List Char) : AppConfig.PortConfig where
  portId := (parseUint UInt64.toUInt16 obj "port_id").getD 0
  nbRxQueues := (parseUint UInt64.toUInt16 obj "nb_rx_queues").getD 0
  nbTxQueues := (parseUint UInt64.toUInt16 obj "nb_tx_queues").getD 0
  nbRxDesc := (parseUint UInt64.toUInt16 obj "nb_rx_desc").getD 0
  nbTxDesc := (parseUint UInt64.toUInt16 obj "nb_tx_desc").getD 0

/-- An entry of the core mappings array. -/
def parseCoreMapping (obj : List Char) : AppConfig.CoreMapping where
  coreId := (parseUint UInt64.toUInt32 obj "core_id").getD 0
  portId := (parseUint UInt64.toUInt16 obj "port_id").getD 0
  queueId := (parseUint UInt64.toUInt16 obj "queue_id").getD 0
  enableRx := (parseBool obj "enable_rx").getD false

/-- Parse configuration from JSON string, over the defaults. No text is refused. -/
def parseFromString (jsonStr : String) : Option AppConfig :=
  let json := jsonStr.toList
  let cfg := getDefaultConfig
  let portsArray := extractArray json "ports"
  let coresArray := extractArray json "core_mappings"
  let grpcObj := findRawValue json "grpc_config"
  some {
    hugepagePath := (parseString json "hugepage_path").getD cfg.hugepagePath
    numCores := (parseUint UInt64.toUInt32 json "num_cores").getD cfg.numCores
    mbufsPerSocket := (parseUint UInt64.toUInt32 json "mbufs_per_socket").getD cfg.mbufsPerSocket
    mbufCacheSize := (parseUint UInt64.toUInt32 json "mbuf_cache_size").getD cfg.mbufCacheSize
    txBurstSize := (parseUint UInt64.toUInt16 json "tx_burst_size").getD cfg.txBurstSize
    rxBurstSize := (parseUint UInt64.toUInt16 json "rx_burst_size").getD cfg.rxBurstSize
    ports := if portsArray = [] then cfg.ports
      else (splitObjectsInArray portsArray).map parsePort
    coreMappings := if coresArray = [] then cfg.coreMappings
      else (splitObjectsInArray coresArray).map parseCoreMapping
    grpcConfig := if grpcObj.head? = some '{' then
        { listenAddress :=
            (parseString grpcObj "listen_address").getD cfg.grpcConfig.listenAddress
          port := (parseUint UInt64.toUInt16 grpcObj "port").getD cfg.grpcConfig.port }
      else cfg.grpcConfig }

/-- Parse configuration from JSON file, given what it holds if it can be opened. -/
def parseFromFile (contents : Option String) : Option AppConfig :=
  contents.bind parseFromString

end ConfigParser

end TrafficGen

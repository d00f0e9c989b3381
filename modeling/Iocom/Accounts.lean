import Iocom.AllowedNetworks
import Iocom.PackedJson

/-!
# User accounts

How `ioc_authorize` reads the accounts and the white list of an IO network
from the packed JSON of the memory block which holds them.
-/

namespace Iocom

abbrev IpAddress := { bytes : List UInt8 // bytes.length = 16 }

/-- Functions of the operating system layer; `none` is the null pointer.
`nullEquals` tells which strings `os_strcmp` finds equal to it. -/
structure AccountsOsal where
  patternMatch : String → Option String → Bool
  nullEquals : String → Bool
  ipFromStr : Option String → Option IpAddress

/-- `!os_strcmp`. -/
def AccountsOsal.equals (osal : AccountsOsal) (a : Option String) (b : String) : Bool :=
  match a with
  | some a => decide (a = b)
  | none => osal.nullEquals b

structure IocUser where
  userName : String
  networkName : String
  password : String

inductive NoteCode where
  | newIoDevice
  | wrongIoDevicePassword
  deriving DecidableEq

@[ext]
structure AccountFields where
  userName : Option String
  password : Option String
  privileges : Option String
  ipStart : Option String
  ipEnd : Option String
  deriving DecidableEq

def noFields : AccountFields := ⟨none, none, none, none, none⟩

/-- Members of `iocAccountsParserState` which change while parsing.  The tag of
an item is used only while that item is processed. -/
structure AccountsParserState where
  fields : AccountFields
  validUser : Bool
  ncode : NoteCode
  allowedNetworks : List AllowedNetwork

/-- Members of `iocAccountsParserState` which stay the same. -/
structure AccountsCheck where
  osal : AccountsOsal
  user : IocUser
  checkedUserName : String
  mblkNetworkName : String
  receivedIp : String

/-- `ioc_compare_ip`. -/
def compareIp : List UInt8 → List UInt8 → ℤ
  | a :: as, b :: bs =>
      if a < b then -1
      else if b < a then 1
      else compareIp as bs
  | _, _ => 0

variable (check : AccountsCheck)

/-- `ioc_check_whitelist`. -/
def AccountsCheck.checkWhitelist (fields : AccountFields) : Bool :=
  match check.osal.ipFromStr fields.ipStart with
  | none => false
  | some firstIp =>
      match check.osal.ipFromStr fields.ipEnd with
      | none => false
      | some lastIp =>
          match check.osal.ipFromStr (some check.receivedIp) with
          | none => false
          | some receivedIp =>
              if compareIp receivedIp firstIp < 0 then false
              else if 0 < compareIp receivedIp lastIp then false
              else true

/-- The user account check at the end of a block of the accounts array. -/
def AccountsCheck.checkAccount (fields : AccountFields) : Bool :=
  check.osal.patternMatch check.checkedUserName fields.userName &&
    (check.osal.equals fields.password "*" ||
      check.osal.equals fields.password check.user.password)

def AccountsCheck.accountFlags (fields : AccountFields) : ℕ :=
  if check.osal.equals fields.privileges "admin" then authAdministrator else 0

/-- What `ioc_authorize_process_block` does at the end of the block. -/
def AccountsCheck.endOfBlock
    (state : AccountsParserState) (arrayTag : String) : AccountsParserState :=
  if arrayTag = "whitelist" then
    if !state.validUser && check.checkWhitelist state.fields then
      { state with
        validUser := true
        allowedNetworks :=
          addAllowedNetwork state.allowedNetworks check.mblkNetworkName 0 }
    else state
  else if arrayTag = "accounts" then
    -- The note is of a wrong password also when the password turns out right.
    let ncode :=
      if check.osal.patternMatch check.checkedUserName state.fields.userName &&
          !check.osal.equals state.fields.password "*" then
        .wrongIoDevicePassword
      else state.ncode
    if check.checkAccount state.fields then
      { state with
        validUser := true
        ncode := ncode
        allowedNetworks :=
          addAllowedNetwork state.allowedNetworks check.mblkNetworkName
            (check.accountFlags state.fields) }
    else { state with ncode := ncode }
  else state

def AccountFields.set (fields : AccountFields) (tag s : String) : AccountFields :=
  if tag = "user" then { fields with userName := some s }
  else if tag = "privileges" then { fields with privileges := some s }
  else if tag = "password" then { fields with password := some s }
  else if tag = "ip" then { fields with ipStart := some s }
  else if tag = "last_ip" then { fields with ipEnd := some s }
  else fields

structure Parsed where
  status : ParseStatus
  state : AccountsParserState
  rest : List JsonItem

mutual

/-- `ioc_authorize_process_array`. -/
def AccountsCheck.processArray
    (check : AccountsCheck) (fuel : ℕ) (state : AccountsParserState) (arrayTag : String)
    (items : List JsonItem) : Parsed :=
  match fuel, items with
  | 0, items => ⟨.outOfFuel, state, items⟩
  | _ + 1, [] => ⟨.success, state, []⟩
  | fuel + 1, item :: items =>
      match item.code with
      | .endBlock => ⟨.failed, state, items⟩
      | .endArray => ⟨.success, state, items⟩
      | .startBlock =>
          let parsed := check.processBlock fuel state arrayTag items
          if parsed.status = .success then
            check.processArray fuel parsed.state arrayTag parsed.rest
          else parsed
      | .startArray =>
          let parsed := check.processArray fuel state arrayTag items
          if parsed.status = .success then
            check.processArray fuel parsed.state arrayTag parsed.rest
          else parsed
      | .value _ => check.processArray fuel state arrayTag items

/-- `ioc_authorize_process_block`. -/
def AccountsCheck.processBlock
    (check : AccountsCheck) (fuel : ℕ) (state : AccountsParserState) (arrayTag : String)
    (items : List JsonItem) : Parsed :=
  match fuel, items with
  | 0, items => ⟨.outOfFuel, state, items⟩
  | _ + 1, [] => ⟨.success, state, []⟩
  | fuel + 1, item :: items =>
      match item.code with
      | .endBlock => ⟨.success, check.endOfBlock state arrayTag, items⟩
      | .endArray => ⟨.failed, state, items⟩
      | .startBlock =>
          let cleared := { state with fields := noFields }
          let parsed := check.processBlock fuel cleared arrayTag items
          if parsed.status = .success then
            check.processBlock fuel parsed.state arrayTag parsed.rest
          else parsed
      | .startArray =>
          let parsed :=
            check.processArray fuel state (arrayTagOf item.tagName) items
          if parsed.status = .success then
            check.processBlock fuel parsed.state arrayTag parsed.rest
          else parsed
      | .value (.string s) =>
          let set := { state with fields := state.fields.set item.tagName s }
          check.processBlock fuel set arrayTag items
      -- The code has no case for an integer.
      | .value (.integer _) => ⟨.failed, state, items⟩
      | .value .float | .value .null | .value (.boolean _) =>
          check.processBlock fuel state arrayTag items

end

/-- What `ioc_authorize_parse_accounts` tells. -/
structure AccountsVerdict where
  isValidUser : Bool
  allowedNetworks : List AllowedNetwork
  note : Option NoteCode

def parserStart (allowedNetworks : List AllowedNetwork) : AccountsParserState where
  fields := noFields
  validUser := false
  ncode := .newIoDevice
  allowedNetworks := allowedNetworks

/-- `ioc_authorize_parse_accounts`; there are no items when the indexer finds
that the data is corrupted. -/
def AccountsCheck.parseAccounts
    (allowedNetworks : List AllowedNetwork) (config : Option (List JsonItem)) :
    AccountsVerdict :=
  let state :=
    match config with
    | none => parserStart allowedNetworks
    | some items =>
        (check.processBlock (items.length + 1) (parserStart allowedNetworks) ""
          items).state
  { isValidUser := state.validUser
    allowedNetworks := state.allowedNetworks
    note := if state.validUser then none else some state.ncode }

/-! ## Authorization -/

structure AccountsBlock where
  mblkName : String
  deviceName : String
  networkName : String
  config : Option (List JsonItem)

/-- What `ioc_authorize` checks a user by. -/
structure AuthorizeRequest where
  osal : AccountsOsal
  rootNetworkName : String
  user : IocUser
  ip : String

/-- `check_root_network`. -/
def AuthorizeRequest.checkRootNetwork (request : AuthorizeRequest) : Option String :=
  if request.user.networkName = request.rootNetworkName then none
  else some request.rootNetworkName

def AuthorizeRequest.checkOf (request : AuthorizeRequest) (block : AccountsBlock) :
    Option AccountsCheck :=
  if block.mblkName = "data" ∧ block.deviceName = "accounts" then
    if block.networkName = request.user.networkName then
      some
        { osal := request.osal
          user := request.user
          checkedUserName := request.user.userName
          mblkNetworkName := block.networkName
          receivedIp := request.ip }
    else if request.osal.equals request.checkRootNetwork block.networkName then
      some
        { osal := request.osal
          user := request.user
          checkedUserName :=
            request.user.userName ++ "." ++ request.user.networkName
          mblkNetworkName := request.user.networkName
          receivedIp := request.ip }
    else none
  else none

/-- The loop of `ioc_authorize` through the memory blocks. -/
def AuthorizeRequest.checkBlocks (request : AuthorizeRequest) :
    ℕ → Bool × List AllowedNetwork → List AccountsBlock →
      Bool × List AllowedNetwork
  | _, found, [] => found
  | nToCheck, (isValidUser, allowedNetworks), block :: blocks =>
      match request.checkOf block with
      | none => request.checkBlocks nToCheck (isValidUser, allowedNetworks) blocks
      | some check =>
          let verdict := check.parseAccounts allowedNetworks block.config
          let found := (isValidUser || verdict.isValidUser, verdict.allowedNetworks)
          if nToCheck ≤ 1 then found
          else request.checkBlocks (nToCheck - 1) found blocks

inductive AuthorizeStatus where
  | success
  | noAccessRight
  | failed
  deriving DecidableEq

/-- `ioc_authorize`. -/
def AuthorizeRequest.authorize
    (request : AuthorizeRequest) (allowedNetworks : List AllowedNetwork)
    (blocks : List AccountsBlock) : AuthorizeStatus × List AllowedNetwork :=
  if request.user.userName = "" ∨ request.user.networkName = "" then
    (.failed, allowedNetworks)
  else
    let nToCheck := if request.checkRootNetwork.isNone then 1 else 2
    let found := request.checkBlocks nToCheck (false, allowedNetworks) blocks
    (if found.1 then .success else .noAccessRight, found.2)

end Iocom

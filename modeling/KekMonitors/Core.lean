import Mathlib.Data.List.Basic

/-!
# Commands, errors and failures

The enumerations of `core.hpp`, the error codes handed to completion handlers,
and the ways in which a handler can fail to return.
-/

namespace KekMonitors

abbrev CommandType := UInt32

abbrev ErrorType := UInt32

/-- `COMMANDS`, in the order of the enumeration. -/
inductive Command where
  | ping
  | stop
  | setShoes
  | addShoes
  | getShoes
  | getConfig
  | getWhitelist
  | getBlacklist
  | getWebhooks
  | setSpecificConfig
  | setSpecificWebhooks
  | setSpecificBlacklist
  | setSpecificWhitelist
  | setCommonConfig
  | setCommonWebhooks
  | setCommonBlacklist
  | setCommonWhitelist
  | mmAddMonitor
  | mmAddScraper
  | mmAddMonitorScraper
  | mmStopMonitor
  | mmStopScraper
  | mmStopMonitorScraper
  | mmStopMonitorManager
  | mmGetMonitorStatus
  | mmGetScraperStatus
  | mmGetMonitorScraperStatus
  | mmSetMonitorConfig
  | mmGetMonitorConfig
  | mmSetMonitorWhitelist
  | mmGetMonitorWhitelist
  | mmSetMonitorBlacklist
  | mmGetMonitorBlacklist
  | mmSetMonitorWebhooks
  | mmGetMonitorWebhooks
  | mmSetScraperConfig
  | mmGetScraperConfig
  | mmSetScraperWhitelist
  | mmGetScraperWhitelist
  | mmSetScraperBlacklist
  | mmGetScraperBlacklist
  | mmSetScraperWebhooks
  | mmGetScraperWebhooks
  | mmSetMonitorScraperBlacklist
  | mmSetMonitorScraperWhitelist
  | mmSetMonitorScraperWebhooks
  | mmSetMonitorScraperConfig
  | mmGetMonitorShoes
  | mmGetScraperShoes
  deriving DecidableEq, Repr

/-- The enumeration counts from one. -/
def Command.code (command : Command) : CommandType :=
  UInt32.ofNat (command.ctorIdx + 1)

/-- The names that `initMaps` registers for the commands. -/
def commandStringMap : List (Command × String) :=
  [(.ping, "PING"),
    (.stop, "STOP"),
    (.setShoes, "SET_SHOES"),
    (.addShoes, "ADD_SHOES"),
    (.getShoes, "GET_SHOES"),
    (.getConfig, "GET_CONFIG"),
    (.getWhitelist, "GET_WHITELIST"),
    (.getBlacklist, "GET_BLACKLIST"),
    (.getWebhooks, "GET_WEBHOOKS"),
    (.setSpecificConfig, "SET_SPECIFIC_CONFIG"),
    (.setSpecificWebhooks, "SET_SPECIFIC_WEBHOOKS"),
    (.setSpecificBlacklist, "SET_SPECIFIC_BLACKLIST"),
    (.setSpecificWhitelist, "SET_SPECIFIC_WHITELIST"),
    (.setCommonConfig, "SET_COMMON_CONFIG"),
    (.setCommonWebhooks, "SET_COMMON_WEBHOOKS"),
    (.setCommonBlacklist, "SET_COMMON_BLACKLIST"),
    (.setCommonWhitelist, "SET_COMMON_WHITELIST"),
    (.mmAddMonitor, "MM_ADD_MONITOR"),
    (.mmAddScraper, "MM_ADD_SCRAPER"),
    (.mmAddMonitorScraper, "MM_ADD_MONITOR_SCRAPER"),
    (.mmStopMonitor, "MM_STOP_MONITOR"),
    (.mmStopScraper, "MM_STOP_SCRAPER"),
    (.mmStopMonitorScraper, "MM_STOP_MONITOR_SCRAPER"),
    (.mmStopMonitorManager, "MM_STOP_MONITOR_MANAGER"),
    (.mmGetMonitorStatus, "MM_GET_MONITOR_STATUS"),
    (.mmGetScraperStatus, "MM_GET_SCRAPER_STATUS"),
    (.mmGetMonitorScraperStatus, "MM_GET_MONITOR_SCRAPER_STATUS"),
    (.mmSetMonitorConfig, "MM_SET_MONITOR_CONFIG"),
    (.mmGetMonitorConfig, "MM_GET_MONITOR_CONFIG"),
    (.mmSetMonitorWhitelist, "MM_SET_MONITOR_WHITELIST"),
    (.mmGetMonitorWhitelist, "MM_GET_MONITOR_WHITELIST"),
    (.mmSetMonitorBlacklist, "MM_SET_MONITOR_BLACKLIST"),
    (.mmGetMonitorBlacklist, "MM_GET_MONITOR_BLACKLIST"),
    (.mmSetMonitorWebhooks, "MM_SET_MONITOR_WEBHOOKS"),
    (.mmGetMonitorWebhooks, "MM_GET_MONITOR_WEBHOOKS"),
    (.mmSetScraperConfig, "MM_SET_SCRAPER_CONFIG"),
    (.mmGetScraperConfig, "MM_GET_SCRAPER_CONFIG"),
    (.mmSetScraperWhitelist, "MM_SET_SCRAPER_WHITELIST"),
    (.mmGetScraperWhitelist, "MM_GET_SCRAPER_WHITELIST"),
    (.mmSetScraperBlacklist, "MM_SET_SCRAPER_BLACKLIST"),
    (.mmGetScraperBlacklist, "MM_GET_SCRAPER_BLACKLIST"),
    (.mmSetScraperWebhooks, "MM_SET_SCRAPER_WEBHOOKS"),
    (.mmGetScraperWebhooks, "MM_GET_SCRAPER_WEBHOOKS"),
    (.mmSetMonitorScraperBlacklist, "MM_SET_MONITOR_SCRAPER_BLACKLIST"),
    (.mmSetMonitorScraperWhitelist, "MM_SET_MONITOR_SCRAPER_WHITELIST"),
    (.mmSetMonitorScraperWebhooks, "MM_SET_MONITOR_SCRAPER_WEBHOOKS"),
    (.mmSetMonitorScraperConfig, "MM_SET_MONITOR_SCRAPER_CONFIG"),
    (.mmGetMonitorShoes, "MM_GET_MONITOR_SHOES"),
    (.mmGetScraperShoes, "MM_GET_SCRAPER_SHOES")]

/-- `ERRORS`, in the order of the enumeration. -/
inductive Error where
  | ok
  | socketDoesntExist
  | socketCouldntConnect
  | socketTimeout
  | monitorDoesntExist
  | scraperDoesntExist
  | monitorNotRegistered
  | scraperNotRegistered
  | unrecognizedCommand
  | badPayload
  | missingPayload
  | missingPayloadArgs
  | mmCouldntAddMonitor
  | mmCouldntAddScraper
  | mmCouldntAddMonitorScraper
  | mmCouldntStopMonitor
  | mmCouldntStopScraper
  | mmCouldntStopMonitorScraper
  | otherError
  | unknownError
  deriving DecidableEq, Repr

/-- The enumeration counts from zero. -/
def Error.code (error : Error) : ErrorType :=
  UInt32.ofNat error.ctorIdx

/-- The names that `initMaps` registers, in the order of the enumeration. -/
def errorNames : List String :=
  ["OK", "SOCKET_DOESNT_EXIST", "SOCKET_COULDNT_CONNECT", "SOCKET_TIMEOUT",
    "MONITOR_DOESNT_EXIST", "SCRAPER_DOESNT_EXIST",
    "MONITOR_NOT_REGISTERED", "SCRAPER_NOT_REGISTERED",
    "UNRECOGNIZED_COMMAND", "BAD_PAYLOAD", "MISSING_PAYLOAD",
    "MISSING_PAYLOAD_ARGS", "MM_COULDNT_ADD_MONITOR",
    "MM_COULDNT_ADD_SCRAPER", "MM_COULDNT_ADD_MONITOR_SCRAPER",
    "MM_COULDNT_STOP_MONITOR", "MM_COULDNT_STOP_SCRAPER",
    "MM_COULDNT_STOP_MONITOR_SCRAPER", "OTHER_ERROR", "UNKNOWN_ERROR"]

inductive MonitorOrScraper where
  | monitor
  | scraper
  deriving DecidableEq, Repr

/-- The name of the kind as the source spells it in messages. -/
def MonitorOrScraper.name : MonitorOrScraper → String
  | .monitor => "Monitor"
  | .scraper => "Scraper"

/--
The error codes a completion handler can be given.  Success is the absence of
one, so handlers take an `Option ErrorCode`.
-/
inductive ErrorCode where
  | operationAborted
  | eof
  | badDescriptor
  | invalidArgument
  | other (value : Nat) (message : String)
  deriving DecidableEq, Repr

def ErrorCode.message : ErrorCode → String
  | .operationAborted => "Operation canceled"
  | .eof => "End of file"
  | .badDescriptor => "Bad file descriptor"
  | .invalidArgument => "Invalid argument"
  | .other _ message => message

/-- The exception types that the modelled code can raise. -/
inductive Exception where
  | jsonTypeError
  | jsonOutOfRange
  | outOfRange
  | standard
  | bson
  | database
  | process
  | system
  | inotify
  deriving DecidableEq, Repr

/-- Why a handler did not return. -/
inductive Fault where
  | raised (exception : Exception)
  | undefinedBehaviour
  deriving DecidableEq, Repr

/-- `operator[]` of a string; a null character follows the last one. -/
def subscript {α : Type} (null : α) (s : List α) (pos : Nat) :
    Except Fault α :=
  match s[pos]? with
  | some c => .ok c
  | none => if pos = s.length then .ok null else .error .undefinedBehaviour

theorem subscript_of_lt {α : Type} (null : α) {s : List α} {pos : Nat}
    {c : α} (there : s[pos]? = some c) : subscript null s pos = .ok c := by
  rw [subscript, there]

theorem subscript_end {α : Type} (null : α) (s : List α) :
    subscript null s s.length = .ok null := by
  simp [subscript]

theorem subscript_of_gt {α : Type} (null : α) {s : List α} {pos : Nat}
    (outside : s.length < pos) :
    subscript null s pos = .error .undefinedBehaviour := by
  rw [subscript, List.getElem?_eq_none (Nat.le_of_lt outside),
    if_neg (Nat.ne_of_gt outside)]

end KekMonitors

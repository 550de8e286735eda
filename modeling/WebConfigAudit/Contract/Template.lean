/-!
The contract that people start from.
-/

namespace WebConfigAudit

def templateLines : List String :=
  ["# webcfg-guard contract",
   "#",
   "# Built-in rules:",
   "#   EnsureCookielessAreSetToUseCookies",
   "#   AvoidInsufficientSessionExpirationInConfigFile",
   "#   AvoidElmahEnabledInProduction",
   "#",
   "# Run `webcfg-guard rules` to list the rules this file enables.",
   "",
   "version: \"1.0\"",
   "name: \"Production web.config\"",
   "description: \"Security settings required before a site is deployed\"",
   "",
   "# Set to false to use only the rules declared below.",
   "builtin_rules: true",
   "",
   "# Built-in rules to turn off.",
   "disabled_rules: []",
   "",
   "# Paths (relative to the scanned directory) that are never analyzed.",
   "excluded_paths:",
   "  - \"**/bin/**\"",
   "  - \"**/obj/**\"",
   "",
   "rules:",
   "  - id: AvoidDebugCompilation",
   "    description: \"Debug compilation must be disabled in production\"",
   "    checks:",
   "      - tag: compilation",
   "        attribute: debug",
   "        domain: string",
   "        policy: forbidden_value",
   "        value: \"true\"",
   "",
   "  - id: EnsureCustomErrorsEnabled",
   "    description: \"Custom error pages must hide exception details from remote users\"",
   "    checks:",
   "      - tag: customErrors",
   "        attribute: mode",
   "        domain: string",
   "        policy: forbidden_value",
   "        value: \"Off\"",
   "",
   "  - id: AvoidTraceEnabled",
   "    description: \"Application tracing must be disabled in production\"",
   "    checks:",
   "      - tag: trace",
   "        attribute: enabled",
   "        domain: string",
   "        policy: forbidden_value",
   "        value: \"true\"",
   "",
   "  - id: EnsureHttpOnlyCookies",
   "    description: \"Cookies must not be readable from client script\"",
   "    checks:",
   "      - tag: httpCookies",
   "        attribute: httpOnlyCookies",
   "        domain: presence",
   "      - tag: httpCookies",
   "        attribute: httpOnlyCookies",
   "        domain: string",
   "        policy: mandatory_value",
   "        value: \"true\"",
   "",
   "  - id: AvoidVersionHeader",
   "    description: \"The ASP.NET version header must not be sent\"",
   "    checks:",
   "      - tag: httpRuntime",
   "        attribute: enableVersionHeader",
   "        domain: string",
   "        policy: mandatory_value",
   "        value: \"false\"",
   "",
   "compound_rules: []"]

def contractTemplate : String :=
  String.join (templateLines.map fun line => line ++ "\n")

end WebConfigAudit

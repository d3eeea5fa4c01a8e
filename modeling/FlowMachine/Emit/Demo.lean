import FlowMachine.Emit.Layout

/-!
# The demo script

A script that drives a machine from the terminal.
-/
namespace FlowMachine.Emit

open FlowMachine.Text

/-- One line of the help screen: an event and the fields it takes. -/
def usageLine (e : Event) : String :=
  let fields := " ".intercalate (e.payload.map fun f => f.name ++ "=<" ++ f.kind.name ++ ">")
  String.ofList (trim (e.name ++ " " ++ fields).toList)

/-- The text of the demo script. -/
def demoScript (m : Machine) : String :=
  document (
  ["#!/usr/bin/env python3",
   "\"\"\"",
   doc m.displayName ++ " - interactive demo",
   "",
   "Drive the generated machine from the terminal. Type an event name followed",
   "by optional key=value payload pairs, or one of the commands below.",
   "",
   "USAGE:",
   "    python " ++ m.moduleName ++ "_demo.py",
   "    python " ++ m.moduleName ++ "_demo.py --script EVENT [EVENT ...]",
   "",
   "COMMANDS:",
   "    help     Show events and commands",
   "    state    Show current state and context",
   "    reset    Restart from the initial state",
   "    quit     Leave the demo",
   "\"\"\"",
   "",
   "import argparse",
   "import json",
   "import logging",
   "import sys",
   "",
   "from " ++ m.moduleName ++ " import EVENTS, INITIAL_STATE, MACHINE_NAME, create_machine",
   "",
   "USAGE = ["]
  ++ (m.events.map fun e => "    " ++ literal (usageLine e) ++ ",") ++
  ["]",
   "",
   "",
   "def parse_line(line):",
   "    \"\"\"'EVENT key=value ...' -> ('EVENT', \x7b'key': 'value'\x7d)\"\"\"",
   "    parts = line.split()",
   "    payload = \x7b\x7d",
   "    for part in parts[1:]:",
   "        key, sep, value = part.partition('=')",
   "        if sep and key:",
   "            payload[key] = value",
   "    return parts[0].upper(), payload",
   "",
   "",
   "def print_help(model):",
   "    print(f\"\\n\x7bMACHINE_NAME\x7d events:\")",
   "    for line in USAGE:",
   "        print(f\"  \x7bline\x7d\")",
   "    print(\"Commands: help, state, reset, quit\")",
   "    print(f\"Available now: \x7b', '.join(model.available_events()) or '(none)'\x7d\\n\")",
   "",
   "",
   "def print_state(model):",
   "    print(json.dumps(model.snapshot(), indent=2, default=str))",
   "",
   "",
   "def send(model, line):",
   "    event, payload = parse_line(line)",
   "    if event not in EVENTS and event not in model.available_events():",
   "        print(f\"Unknown event: \x7bevent\x7d\")",
   "        return False",
   "    before = model.state",
   "    if model.dispatch(event, **payload):",
   "        print(f\"\x7bbefore\x7d --\x7bevent\x7d--> \x7bmodel.state\x7d\")",
   "        if model.finished:",
   "            print(\"Reached a final state.\")",
   "        return True",
   "    print(f\"\x7bevent\x7d is not available in \x7bbefore\x7d\")",
   "    return False",
   "",
   "",
   "def run_script(events):",
   "    \"\"\"Dispatch events in order; exit code 1 if any was rejected.\"\"\"",
   "    model = create_machine()",
   "    print(f\"\x7bMACHINE_NAME\x7d: starting in \x7bmodel.state\x7d\")",
   "    ok = True",
   "    for line in events:",
   "        ok = send(model, line) and ok",
   "    print_state(model)",
   "    return 0 if ok else 1",
   "",
   "",
   "def interactive():",
   "    model = create_machine()",
   "    print(f\"\x7bMACHINE_NAME\x7d demo. Starting in \x7bINITIAL_STATE\x7d. Type 'help' " ++
     "for events.\")",
   "    while True:",
   "        try:",
   "            line = input(f\"[\x7bmodel.state\x7d]> \").strip()",
   "        except (EOFError, KeyboardInterrupt):",
   "            print()",
   "            return 0",
   "        if not line:",
   "            continue",
   "        command = line.lower()",
   "        if command in ('quit', 'exit'):",
   "            return 0",
   "        if command == 'help':",
   "            print_help(model)",
   "        elif command == 'state':",
   "            print_state(model)",
   "        elif command == 'reset':",
   "            model = create_machine()",
   "            print(f\"Reset to \x7bmodel.state\x7d\")",
   "        else:",
   "            send(model, line)",
   "",
   "",
   "def main(argv=None):",
   "    parser = argparse.ArgumentParser(description=f\"\x7bMACHINE_NAME\x7d demo\")",
   "    parser.add_argument('--script', nargs='+', metavar='EVENT',",
   "                        help='Dispatch events non-interactively and exit')",
   "    parser.add_argument('--debug', action='store_true', help='Enable debug logging')",
   "    args = parser.parse_args(argv)",
   "",
   "    logging.basicConfig(",
   "        level=logging.DEBUG if args.debug else logging.WARNING,",
   "        format='%(asctime)s - %(name)s - %(levelname)s - %(message)s'",
   "    )",
   "",
   "    if args.script:",
   "        return run_script(args.script)",
   "    return interactive()",
   "",
   "",
   "if __name__ == '__main__':",
   "    sys.exit(main())"]
  )

end FlowMachine.Emit

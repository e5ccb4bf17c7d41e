import Barista.Cache.SharedDirectory
import Barista.Cache.Threads
import Barista.Version.Canonical
import Barista.Resolver.SkipperTransparency
import Barista.Pom.Inheritance
import Barista.Cache.Untrusted
import Barista.Resolver.Agreement
import Barista.Roastery.Integrity
import Barista.Roastery.Coordinates
import Barista.Ipc.Handles
import Barista.Daemon.DispatchOrder
import Barista.Cache.SingleFlight
import Barista.Daemon.Outcome
import Barista.Daemon.Respawning
import Barista.Daemon.GenericRun
import Barista.Daemon.Launching
import Barista.Pour.InPlace
import Barista.Pull.History
import Barista.Resolver.Output
import Barista.Pom.Activation
import Barista.Lockfile.DiffOrder

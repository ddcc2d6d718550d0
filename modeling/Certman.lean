import Certman.PyStr
import Certman.Config
import Certman.Providers
import Certman.Secrets
import Certman.Domains
import Certman.Schema
import Certman.Merge
import Certman.Sorted
import Certman.Runtime
import Certman.Cli
import Certman.Export
import Certman.Renew
import Certman.Check
import Certman.Fix
import Certman.Logs
import Certman.Session
import Certman.Mirror
import Certman.Layout
